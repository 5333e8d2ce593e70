import Ultinet.Lib.Session
import Ultinet.Net.ClientPanics
import Ultinet.Net.PeerFilter

/-!
# The callbacks of a client

What the caller of a client and its handler observe of the connection is a trace of session events:
a successful `connect` requests a session, the callbacks `accept` and `reject` answer the request,
`packet`, `kick` and successful calls of `send` and `disconnect` need a session, and a session ends
with `kick`, `disconnect`, an error of `send` or `disconnect`, a timeout, or an error while something
is sent to its server, which is the one that `connect` was called for.

The socket only receives from the address it was last connected to (`SocketRun`).  So if `connect` is
called for a server that is not at position 0 then nothing that arrives is taken for a packet of the
connection.

`observed_lawful` says that these traces are lawful, as long as no version query to the server at
position 0 fails in an update.  Such a failure drops the listener of the server but not the
connection, so if the client listens to the server again then what comes from it is taken for a packet
of the connection that has ended.
-/

namespace Ultinet

variable {P : Packets}

/-! ## What is observed -/

/-- What it means for the session that the handler is told something. -/
def ClientEvent.sessionEvent? : ClientEvent P → Option (Session.Event SocketAddr)
  | .accept _ => some .grant
  | .reject _ => some .refuse
  | .packet _ => some .use
  | .kick _ => some .close
  | .error (.send receiverAddr _) => some (.fail receiverAddr)
  -- whichever server timed out, the client ends the connection
  | .error (.timeout _) => some .cut
  | _ => none

/-- No callback requests a session. -/
theorem ClientEvent.not_isRequest {event : ClientEvent P} {e : Session.Event SocketAddr}
    (h : event.sessionEvent? = some e) : ¬e.IsRequest = true := by
  unfold ClientEvent.sessionEvent? at h
  split at h <;> cases h <;> exact Bool.false_ne_true

/-- What the caller of a client and its handler observe. -/
inductive ClientObservation (P : Packets)
  /-- `connect` was called for the server and returned a packet id. -/
  | connected (serverAddr : SocketAddr)
  /-- `send` returned a packet id. -/
  | sent
  /-- `disconnect` returned a packet id. -/
  | disconnected
  /-- `send` or `disconnect` returned an I/O error. -/
  | failed (error : IoError)
  /-- The handler was told something in an update. -/
  | told (event : ClientEvent P)

namespace ClientObservation

/-- What an observation means for the session. -/
def sessionEvent? : ClientObservation P → Option (Session.Event SocketAddr)
  | connected serverAddr => some (.request serverAddr)
  | sent => some .use
  | disconnected => some .close
  | failed _ => some .cut
  | told event => event.sessionEvent?

/-- The handler is told that the server has accepted or rejected the client. -/
def IsAnswer : ClientObservation P → Bool
  | told (.accept _) | told (.reject _) => true
  | _ => false

/-- A connect call succeeded. -/
def IsConnected : ClientObservation P → Bool
  | connected _ => true
  | _ => false

/-- What the caller learns from a call of `send` or `disconnect`. -/
def ofCall (success : ClientObservation P) :
    Except SendError PacketId → List (ClientObservation P)
  | .ok _ => [success]
  | .error (.io error) => [failed error]
  | .error .notConnected => []

end ClientObservation

section Observe

variable [Rkyv P]

/-- What is observed during an operation. -/
def ClientRun.observe (r : ClientRun P) : ClientOp P → List (ClientObservation P)
  | .connect peer connect env =>
      match r.client.connect peer connect env.start with
      | .ok (.ok _, _, _) => peer.toOption.toList.map ClientObservation.connected
      | _ => []
  | .disconnect disconnect env =>
      match r.client.disconnect disconnect env.start with
      | .ok (result, _, _) => ClientObservation.ofCall .disconnected result
      | .error _ => []
  | .send packet env =>
      match r.client.send packet env.start with
      | .ok (result, _, _) => ClientObservation.ofCall .sent result
      | .error _ => []
  | .update handler incoming env =>
      match r.client.update handler incoming env.start with
      | .ok u => u.events.map .told
      | .error _ => []
  | _ => []

end Observe

/-- A client and its socket in a run, with everything observed so far. -/
structure ObservedRun (P : Packets) where
  run : SocketRun P
  trace : List (ClientObservation P)

/-! ## The phase of the session -/

/-- A phase fits to a client and the peer of its socket.  While the client is connecting, a session with
the peer is requested, if the peer is at position 0; while it is connected, the peer is at position 0
and a session with it is open. -/
structure Client.Tracks (c : Client P) (peer : Option SocketAddr)
    (phase : Session.Phase SocketAddr) : Prop where
  connecting : c.state = .connecting → ∃ front addr, c.addrs.head? = some front ∧
    peer = some addr ∧ (front = addr → phase = .requested addr)
  connected : c.state = .connected → ∃ addr, c.addrs.head? = some addr ∧ peer = some addr ∧
    phase = .opened addr

namespace Client.Tracks

variable {c c' : Client P} {peer : Option SocketAddr} {phase : Session.Phase SocketAddr}

/-- Without a connection any phase fits. -/
theorem of_inactive (hconnecting : c.state ≠ .connecting) (hconnected : c.state ≠ .connected) :
    c.Tracks peer phase :=
  ⟨fun h => absurd h hconnecting, fun h => absurd h hconnected⟩

theorem of_disconnected (h : c.state = .disconnected) : c.Tracks peer phase :=
  of_inactive (by rw [h]; decide) (by rw [h]; decide)

/-- While the client is connecting to a server that is not at position 0, any phase fits. -/
theorem of_apart (hstate : c.state = .connecting) {front addr : SocketAddr}
    (hfront : c.addrs.head? = some front) (hpeer : peer = some addr) (hne : front ≠ addr) :
    c.Tracks peer phase := by
  refine ⟨fun _ => ⟨front, addr, hfront, hpeer, fun heq => absurd heq hne⟩, fun hconnected => ?_⟩
  rw [hstate] at hconnected
  cases hconnected

/-- The phase depends on the state of the connection and the address at position 0. -/
theorem congr (h : c.Tracks peer phase) (hstate : c'.state = c.state)
    (haddr : c.state ≠ .disconnected → ∀ addr, c.addrs.head? = some addr →
      c'.addrs.head? = some addr) : c'.Tracks peer phase := by
  constructor
  · intro hc
    rw [hstate] at hc
    obtain ⟨front, addr, hhead, hpeer, hphase⟩ := h.connecting hc
    exact ⟨front, addr, haddr (by rw [hc]; decide) front hhead, hpeer, hphase⟩
  · intro hc
    rw [hstate] at hc
    obtain ⟨addr, hhead, hpeer, hphase⟩ := h.connected hc
    exact ⟨addr, haddr (by rw [hc]; decide) addr hhead, hpeer, hphase⟩

/-- A connection is with the server at position 0, or the client is connecting to another one, from
which its socket receives. -/
theorem exists_head (h : c.Tracks peer phase)
    (hactive : c.state = .connecting ∨ c.state = .connected) :
    ∃ front, c.addrs.head? = some front ∧ (phase.peer? = some front ∨
      c.state = .connecting ∧ ∃ addr, peer = some addr ∧ front ≠ addr) := by
  rcases hactive with hc | hc
  · obtain ⟨front, addr, hhead, hpeer, hphase⟩ := h.connecting hc
    by_cases heq : front = addr
    · refine ⟨front, hhead, Or.inl ?_⟩
      rw [hphase heq, heq]
      rfl
    · exact ⟨front, hhead, Or.inr ⟨hc, addr, hpeer, heq⟩⟩
  · obtain ⟨addr, hhead, -, rfl⟩ := h.connected hc
    exact ⟨addr, hhead, Or.inl rfl⟩

/-- What is received from the server at position 0 while the client is connecting comes from the
server that the session is requested from. -/
theorem requested_of_accepts (h : c.Tracks peer phase) (hstate : c.state = .connecting)
    {addr : SocketAddr} (hhead : c.addrs.head? = some addr)
    (haccepts : peerAccepts peer addr = true) :
    peer = some addr ∧ phase = .requested addr := by
  obtain ⟨front, addr', hfront, rfl, hphase⟩ := h.connecting hstate
  rw [hhead] at hfront
  cases hfront
  obtain rfl : addr = addr' := of_decide_eq_true haccepts
  exact ⟨rfl, hphase rfl⟩

end Client.Tracks

/-- The listener at position 0 keeps its address while it evolves. -/
theorem FrontEvolves.head?_addrs {c c' : Client P} (h : FrontEvolves c.listeners c'.listeners)
    {addr : SocketAddr} (hhead : c.addrs.head? = some addr) : c'.addrs.head? = some addr := by
  unfold Client.addrs at hhead ⊢
  rw [List.head?_map, Option.map_eq_some_iff] at hhead
  obtain ⟨l, hl, rfl⟩ := hhead
  obtain ⟨l', hl', hevolves⟩ := h l hl
  rw [List.head?_map, hl', Option.map_some, hevolves.serverAddr]

theorem Client.Tracks.of_steady {c c' : Client P} {peer : Option SocketAddr}
    {phase : Session.Phase SocketAddr} (h : c.Tracks peer phase) (hsteady : c.Steady c') : c'.Tracks peer phase :=
  h.congr hsteady.state fun hstate _ hhead => (hsteady.front hstate).head?_addrs hhead

/-! ## What is told in an update -/

namespace ClientUpdate

/-- The session events of what the handler was told. -/
def sessionEvents (u : ClientUpdate P) : List (Session.Event SocketAddr) :=
  u.events.filterMap ClientEvent.sessionEvent?

/-- From the phase before an update on, what the handler was told is allowed and leads to a phase
that fits to the client. -/
def Follows (peer : Option SocketAddr) (start : Session.Phase SocketAddr) (u : ClientUpdate P) :
    Prop :=
  ∃ phase, u.sessionEvents.foldlM Session.Phase.next start = some phase ∧ u.client.Tracks peer phase

variable {peer : Option SocketAddr} {start : Session.Phase SocketAddr} {u u' : ClientUpdate P}

theorem sessionEvents_tell (u : ClientUpdate P) (event : ClientEvent P) :
    (u.tell event).sessionEvents = u.sessionEvents ++ event.sessionEvent?.toList := by
  unfold sessionEvents tell
  rw [List.filterMap_append]
  cases hevent : event.sessionEvent? with
  | none => simp [hevent]
  | some e => simp [hevent]

/-- **The rule of a step.**  It is enough to look at the new events. -/
theorem Follows.step (h : u.Follows peer start) {new : List (Session.Event SocketAddr)}
    (hnew : u'.sessionEvents = u.sessionEvents ++ new)
    (hstep : ∀ phase, u.client.Tracks peer phase → ∃ phase', new.foldlM Session.Phase.next phase =
      some phase' ∧ u'.client.Tracks peer phase') : u'.Follows peer start := by
  obtain ⟨phase, hphase, htracks⟩ := h
  obtain ⟨phase', hphase', htracks'⟩ := hstep phase htracks
  refine ⟨phase', ?_, htracks'⟩
  rw [hnew, List.foldlM_append, hphase]
  exact hphase'

/-- Something is told that does not concern the session. -/
theorem Follows.tell (h : u.Follows peer start) (event : ClientEvent P)
    (hevent : event.sessionEvent? = none) : (u.tell event).Follows peer start := by
  have hnew : (u.tell event).sessionEvents = u.sessionEvents ++ [] := by
    rw [sessionEvents_tell, hevent]
    rfl
  exact h.step hnew fun phase htracks => ⟨phase, rfl, htracks⟩

/-- The environment does not matter. -/
theorem Follows.setEnv (h : u.Follows peer start) (env : Env) :
    ({ u with env } : ClientUpdate P).Follows peer start :=
  h

/-- A listener is replaced by one of the same server. -/
theorem Follows.setListener (h : u.Follows peer start) {index : ℕ} {l l' : ServerListener P}
    (hget : u.client.listeners[index]? = some l) (haddr : l'.serverAddr = l.serverAddr) :
    (u.setListener index l').Follows peer start := by
  have hnew : (u.setListener index l').sessionEvents = u.sessionEvents ++ [] :=
    (List.append_nil _).symm
  refine h.step hnew fun phase htracks => ⟨phase, rfl, ?_⟩
  refine htracks.congr rfl fun _ addr hhead => ?_
  rw [← hhead]
  exact congrArg List.head? (Client.addrs_set hget haddr)

/-! ### The pass over the listeners -/

/-- The session events of the pass so far. -/
def Pass.sessionEvents (pass : Pass P) : List (Session.Event SocketAddr) :=
  pass.events.filterMap ClientEvent.sessionEvent?

/-- Visiting a listener can only report that something could not be sent to its server. -/
theorem visitListener_sessionEvents (config : ClientConfig) (pass : Pass P)
    (l : ServerListener P) :
    ∃ failed : List SocketAddr, failed ⊆ [l.serverAddr] ∧
      (visitListener config pass l).1.sessionEvents =
        pass.sessionEvents ++ failed.map Session.Event.fail := by
  unfold visitListener Pass.sessionEvents
  rcases l.update (if pass.connected then some pass.state else none) config pass.env with
    ⟨kept, state, error, env⟩
  cases error with
  | none => exact ⟨[], List.nil_subset _, by simp⟩
  | some error =>
    refine ⟨[l.serverAddr], List.Subset.refl _, ?_⟩
    simp [ClientEvent.sessionEvent?]

/-- The same for several listeners. -/
theorem retainListeners_sessionEvents (config : ClientConfig) (pass : Pass P)
    (ls : List (ServerListener P)) :
    ∃ failed : List SocketAddr, failed ⊆ ls.map ServerListener.serverAddr ∧
      (Vec.retainMut (visitListener config) pass ls).1.sessionEvents =
        pass.sessionEvents ++ failed.map Session.Event.fail := by
  refine Vec.retainMut_state
    (I := fun pass' : Pass P => ∃ failed : List SocketAddr,
      failed ⊆ ls.map ServerListener.serverAddr ∧
      pass'.sessionEvents = pass.sessionEvents ++ failed.map Session.Event.fail)
    (fun pass' l hl hpass' => ?_) ⟨[], List.nil_subset _, by simp⟩
  obtain ⟨failed, hsubset, hevents⟩ := hpass'
  obtain ⟨failed', hsubset', hevents'⟩ := visitListener_sessionEvents config pass' l
  refine ⟨failed ++ failed', List.append_subset.mpr ⟨hsubset, fun addr haddr => ?_⟩, ?_⟩
  · rw [List.mem_singleton.mp (hsubset' haddr)]
    exact List.mem_map_of_mem hl
  · rw [hevents', hevents, List.append_assoc, List.map_append]

/-- The pass over the listeners can only report failed sends. -/
theorem updateListeners_sessionEvents (u : ClientUpdate P) :
    ∃ failed : List SocketAddr,
      u.updateListeners.sessionEvents = u.sessionEvents ++ failed.map Session.Event.fail := by
  obtain ⟨failed, -, hevents⟩ := retainListeners_sessionEvents u.client.config
    { connected := decide (u.client.state ≠ .disconnected), state := u.client.state, env := u.env,
      events := u.events } u.client.listeners
  exact ⟨failed, hevents⟩

/-- While the listener at position 0 is updated without an error, only sends to other servers are
reported. -/
theorem updateListeners_sessionEvents_cons {u : ClientUpdate P} {l l' : ServerListener P}
    {ls : List (ServerListener P)} (hlisteners : u.client.listeners = l :: ls)
    (hstate : u.client.state ≠ .disconnected) {env : Env}
    (hupdate : l.update (some u.client.state) u.client.config u.env =
      (some l', some u.client.state, none, env)) :
    ∃ failed : List SocketAddr, failed ⊆ ls.map ServerListener.serverAddr ∧
      u.updateListeners.sessionEvents = u.sessionEvents ++ failed.map Session.Event.fail := by
  have hfirst : visitListener u.client.config
      { connected := decide (u.client.state ≠ .disconnected), state := u.client.state, env := u.env,
        events := u.events } l =
      ({ connected := false, state := u.client.state, env, events := u.events }, some l') := by
    simp [visitListener, hstate, hupdate]
  obtain ⟨failed, hsubset, hevents⟩ := retainListeners_sessionEvents u.client.config
    { connected := false, state := u.client.state, env, events := u.events } ls
  refine ⟨failed, hsubset, ?_⟩
  unfold updateListeners ClientUpdate.sessionEvents
  rw [hlisteners, Vec.retainMut_cons, hfirst]
  exact hevents

/-- Failed sends are always allowed. -/
theorem exists_foldlM_fail (failed : List SocketAddr) (phase : Session.Phase SocketAddr) :
    ∃ phase', (failed.map Session.Event.fail).foldlM Session.Phase.next phase = some phase' := by
  refine Session.Phase.exists_foldlM_next (fun e he => ?_) phase
  obtain ⟨addr, -, rfl⟩ := List.mem_map.mp he
  exact ⟨rfl, rfl⟩

/-- **The pass over the listeners follows the session**, unless a version query to the server of the
connection fails. -/
theorem updateListeners_follows (hnodup : u.client.addrs.Nodup)
    (hquery : u.client.state = .connecting ∨ u.client.state = .connected →
      ∀ l, u.client.listeners.head? = some l → l.VersionQueryDue u.client.config u.env.now →
        ∀ error, u.env.answer u.env.attempts (l.serverAddr, []) ≠ .failed error)
    (h : u.Follows peer start) : u.updateListeners.Follows peer start := by
  -- if there is no connection afterwards then everything that can be told is allowed
  have hinactive : u.updateListeners.client.state ≠ .connecting →
      u.updateListeners.client.state ≠ .connected → u.updateListeners.Follows peer start := by
    intro hconnecting hconnected
    obtain ⟨failed, hevents⟩ := u.updateListeners_sessionEvents
    refine h.step hevents fun phase _ => ?_
    obtain ⟨phase', hphase'⟩ := exists_foldlM_fail failed phase
    exact ⟨phase', hphase', .of_inactive hconnecting hconnected⟩
  by_cases hactive : u.client.state = .connecting ∨ u.client.state = .connected
  · have hstate : u.client.state ≠ .disconnected := by
      rcases hactive with hc | hc <;> rw [hc] <;> decide
    obtain ⟨phase, -, htracks⟩ := id h
    obtain ⟨addr, hhead, -⟩ := htracks.exists_head hactive
    cases hlisteners : u.client.listeners with
    | nil =>
      unfold Client.addrs at hhead
      rw [hlisteners] at hhead
      cases hhead
    | cons l ls =>
      have haddrs : u.client.addrs = l.serverAddr :: ls.map ServerListener.serverAddr := by
        unfold Client.addrs
        rw [hlisteners, List.map_cons]
      rcases l.update_cases (some u.client.state) u.client.config u.env with
        ⟨l', env', hupdate, haddr', -⟩ | ⟨error, env', hupdate, hdue, hanswer⟩ |
          ⟨error, env', hupdate, -⟩
      · -- the listener of the connection stays, and the others have other addresses
        obtain ⟨hsame, rest, hkept⟩ := updateListeners_cons hlisteners hstate hupdate
        obtain ⟨failed, hsubset, hevents⟩ :=
          updateListeners_sessionEvents_cons hlisteners hstate hupdate
        have hfront : ∀ front, u.client.addrs.head? = some front →
            u.updateListeners.client.addrs.head? = some front := by
          intro front hhead
          unfold Client.addrs at hhead ⊢
          rw [hlisteners] at hhead
          cases hhead
          rw [hkept, Option.toList_some, List.cons_append, List.map_cons, haddr']
          rfl
        refine h.step hevents fun phase htracks => ?_
        obtain ⟨front, hhead, hphase | ⟨hconnecting, addr, hpeer, hne⟩⟩ := htracks.exists_head hactive
        · refine ⟨phase, ?_, htracks.congr hsame fun _ => hfront⟩
          rw [haddrs] at hhead hnodup
          cases hhead
          refine Session.Phase.foldlM_fail fun failing hfailing hsame => ?_
          rw [hphase] at hsame
          cases hsame
          exact (List.nodup_cons.mp hnodup).1 (hsubset hfailing)
        · -- what fails may be the server that the client is connecting to
          obtain ⟨phase', hphase'⟩ := exists_foldlM_fail failed phase
          exact ⟨phase', hphase', .of_apart (hsame.trans hconnecting) (hfront front hhead) hpeer hne⟩
      · exact absurd hanswer (hquery hactive l (by rw [hlisteners]; rfl) hdue error)
      · -- its packets cannot be sent, which ends the connection
        obtain ⟨hdisconnected, -⟩ := updateListeners_cons hlisteners hstate hupdate
        have hended : u.updateListeners.client.state = .disconnected := hdisconnected
        exact hinactive (by rw [hended]; decide) (by rw [hended]; decide)
  · rw [not_or] at hactive
    rcases u.updateListeners_state with hsame | hended
    · exact hinactive (by rw [hsame]; exact hactive.1) (by rw [hsame]; exact hactive.2)
    · exact hinactive (by rw [hended]; decide) (by rw [hended]; decide)

/-! ### The receive loop -/

/-- A ping is sent back, or the connection ends. -/
theorem handlePing_follows (h : u.Follows peer start) (serverAddr : SocketAddr) (buf : Bytes) :
    (u.handlePing serverAddr buf).Follows peer start := by
  have hping := h.tell .ping rfl
  unfold handlePing
  dsimp only
  split
  · exact hping
  · refine hping.step (sessionEvents_tell _ _) fun phase _ => ?_
    obtain ⟨phase', hphase'⟩ := exists_foldlM_fail [serverAddr] phase
    exact ⟨phase', hphase', .of_disconnected rfl⟩

/-- What comes from the server at position 0 passes the filter of the socket. -/
def FromFront (peer : Option SocketAddr) (u : ClientUpdate P) (serverAddr : SocketAddr)
    (isConnectionListener : Bool) : Prop :=
  isConnectionListener = true →
    u.client.addrs.head? = some serverAddr ∧ peerAccepts peer serverAddr = true

/-- A packet that is expected in a state of the connection moves the session along. -/
theorem handleInState_follows (h : u.Follows peer start) (serverAddr : SocketAddr)
    (isConnectionListener : Bool) {state next : ClientState} {event : ClientEvent P}
    {e : Session.Event SocketAddr} (hevent : event.sessionEvent? = some e)
    (hmove : ∀ phase, u.client.Tracks peer phase → u.client.state = state →
      isConnectionListener = true →
      ∃ phase', phase.next e = some phase' ∧ (u.setState next).client.Tracks peer phase') :
    (u.handleInState serverAddr isConnectionListener state event next).Follows peer start := by
  unfold handleInState
  split_ifs with hexpected
  · have htell := u.sessionEvents_tell event
    rw [hevent] at htell
    refine h.step htell fun phase htracks => ?_
    obtain ⟨phase', hnext, htracks'⟩ := hmove phase htracks hexpected.2 hexpected.1
    refine ⟨phase', ?_, htracks'⟩
    rw [Option.toList_some, List.foldlM_cons, hnext]
    rfl
  · exact h.tell _ rfl

/-- **A packet follows the session.** -/
theorem handlePacket_follows (h : u.Follows peer start) {serverAddr : SocketAddr}
    {isConnectionListener : Bool} (hfront : u.FromFront peer serverAddr isConnectionListener)
    (packet : ServerConnectionPacket P) :
    (u.handlePacket serverAddr isConnectionListener packet).Follows peer start := by
  cases packet with
  | status status => exact h.tell _ rfl
  | accept accept =>
    refine handleInState_follows h _ _ rfl fun phase htracks hstate hlistener => ?_
    obtain ⟨hhead, haccepts⟩ := hfront hlistener
    obtain ⟨hpeer, rfl⟩ := htracks.requested_of_accepts hstate hhead haccepts
    exact ⟨.opened serverAddr, rfl, fun hc => (nomatch hc), fun _ => ⟨serverAddr, hhead, hpeer, rfl⟩⟩
  | reject reject =>
    refine handleInState_follows h _ _ rfl fun phase htracks hstate hlistener => ?_
    obtain ⟨hhead, haccepts⟩ := hfront hlistener
    obtain ⟨-, rfl⟩ := htracks.requested_of_accepts hstate hhead haccepts
    exact ⟨.idle, rfl, .of_disconnected rfl⟩
  | kick kick =>
    refine handleInState_follows h _ _ rfl fun phase htracks hstate _ => ?_
    obtain ⟨addr, -, -, rfl⟩ := htracks.connected hstate
    exact ⟨.idle, rfl, .of_disconnected rfl⟩
  | user packet =>
    refine handleInState_follows h _ _ rfl fun phase htracks hstate _ => ?_
    obtain ⟨addr, hhead, hpeer, rfl⟩ := htracks.connected hstate
    exact ⟨.opened addr, rfl, fun hc => (nomatch hc), fun _ => ⟨addr, hhead, hpeer, rfl⟩⟩

/-- A datagram from a server that was asked for its version does not concern the session. -/
theorem handleVersion_follows (h : u.Follows peer start) (handler : ClientHandler P) {index : ℕ}
    {listener : ServerListener P} (hget : u.client.listeners[index]? = some listener)
    (buf : Bytes) : (u.handleVersion handler index listener buf).Follows peer start := by
  unfold handleVersion
  split
  · exact h.tell _ rfl
  · split_ifs
    · split
      · exact h.tell _ rfl
      · dsimp only
        split
        · exact (h.tell _ rfl).setListener hget rfl
        · exact (h.tell _ rfl).setListener hget rfl
    · exact h.tell _ rfl

section Receive

variable [Rkyv P]

theorem Resulted.follows {serverAddr : SocketAddr} {isConnectionListener : Bool}
    {result : Except HandlePacketError PacketHandling}
    (hresult : u.Resulted serverAddr isConnectionListener result u') (h : u.Follows peer start)
    (hfront : u.FromFront peer serverAddr isConnectionListener) : u'.Follows peer start := by
  have hpart := h.tell (.rawPacket (.part serverAddr .reassembled)) rfl
  cases hresult with
  | error error => exact h.tell _ rfl
  | rawPacket handling packet => exact h.tell _ rfl
  | invalid bytes error hcheck => exact hpart.tell _ rfl
  | valid bytes packet hcheck => exact handlePacket_follows hpart hfront packet

theorem handleCompatible_follows (h : u.Follows peer start) {isConnectionListener : Bool} {index : ℕ}
    {listener : ServerListener P} {buffers : PacketBuffers} {buf : Bytes}
    (hget : u.client.listeners[index]? = some listener)
    (hfront : u.FromFront peer listener.serverAddr isConnectionListener)
    (hhandle : u.handleCompatible isConnectionListener index listener buffers buf = .ok u') :
    u'.Follows peer start := by
  have hset : ∀ state, (u.setListener index { listener with state }).Follows peer start :=
    fun state => h.setListener hget rfl
  unfold handleCompatible at hhandle
  dsimp only at hhandle
  split_ifs at hhandle with hping
  · simp only [pure, Except.pure, Except.ok.injEq] at hhandle
    subst hhandle
    exact handlePing_follows (hset _) listener.serverAddr buf
  · simp only [setListener_env] at hhandle
    obtain ⟨⟨result, buffers', env'⟩, -, hresult⟩ := exists_of_bind_ok hhandle
    have hget' : (u.client.listeners.set index
        { listener with state := .compatible buffers u.env.now })[index]? =
          some { listener with state := .compatible buffers u.env.now } :=
      List.getElem?_set_self (List.getElem?_eq_some_iff.mp hget).1
    have htwice : ((u.setListener index
        { listener with state := .compatible buffers u.env.now }).setListener index
          { listener with state := .compatible buffers' u.env.now }).Follows peer start :=
      (hset (.compatible buffers u.env.now)).setListener hget' rfl
    have haddr : ({ listener with state := .compatible buffers' u.env.now } :
        ServerListener P).serverAddr = listener.serverAddr := rfl
    refine (resulted hresult).follows (htwice.setEnv env') fun hlistener => ?_
    obtain ⟨hhead, haccepts⟩ := hfront hlistener
    refine ⟨?_, haccepts⟩
    rw [← hhead, ← Client.addrs_set hget haddr]
    dsimp only [Client.addrs, setListener_client, Client.setListener_listeners]
    rw [List.set_set]

/-- **A datagram follows the session.** -/
theorem handleDatagram_follows (h : u.Follows peer start) {handler : ClientHandler P}
    {serverAddr : SocketAddr} {buf : Bytes} (haccepts : peerAccepts peer serverAddr = true)
    (hhandle : u.handleDatagram handler serverAddr buf = .ok u') : u'.Follows peer start := by
  unfold handleDatagram at hhandle
  cases hposition : u.client.position serverAddr with
  | none =>
    rw [hposition] at hhandle
    cases hhandle
    exact h.tell _ rfl
  | some found =>
    obtain ⟨index, listener⟩ := found
    obtain ⟨hget, rfl⟩ := Client.position_eq_some hposition
    rw [hposition] at hhandle
    dsimp only at hhandle
    split at hhandle
    · cases hhandle
      exact handleVersion_follows h handler hget buf
    · refine handleCompatible_follows h hget (fun hlistener => ⟨?_, haccepts⟩) hhandle
      obtain ⟨rfl, -⟩ := of_decide_eq_true hlistener
      unfold Client.addrs
      rw [List.head?_map, List.head?_eq_getElem?, hget]
      rfl
    · cases hhandle
      exact h.tell _ rfl

/-- **The receive loop follows the session.** -/
theorem receive_follows (h : u.Follows peer start) {handler : ClientHandler P} {incoming : Incoming}
    (haccepts : ∀ datagram ∈ incoming.datagrams, peerAccepts peer datagram.1 = true)
    (hreceive : u.receive handler incoming = .ok u') : u'.Follows peer start := by
  obtain ⟨v, hfold, rfl⟩ := receive_eq_ok hreceive
  have hloop : v.Follows peer start :=
    Vec.foldlM_rule (R := fun u v : ClientUpdate P => u.Follows peer start → v.Follows peer start)
      (fun u hu => hu) (fun u v w h h' hu => h' (h hu))
      (fun u v datagram hmem hv hu => handleDatagram_follows hu (haccepts datagram hmem) hv) hfold h
  cases incoming.error with
  | none => exact hloop
  | some error => exact hloop.tell _ rfl

end Receive

/-! ### The timeout pass -/

/-- The timeout pass reports exactly the listeners that are idle. -/
theorem timeoutListeners_events (timeout : Option ℕ) (now : ℕ) (ls : List (ServerListener P))
    (pass : ClientState × List (ClientEvent P)) :
    (Vec.retainMut (timeoutListener timeout now) pass ls).1.2 =
      pass.2 ++ (ls.filter (idle timeout now)).map fun l =>
        ClientEvent.error (.timeout l.serverAddr) := by
  induction ls generalizing pass with
  | nil => simp
  | cons l ls ih =>
    rw [Vec.retainMut_cons]
    by_cases hidle : idle timeout now l = true
    · rw [timeoutListener_of_idle hidle, List.filter_cons_of_pos hidle, List.map_cons]
      exact (ih _).trans (List.append_assoc _ _ _)
    · rw [timeoutListener_of_not_idle hidle, List.filter_cons_of_neg hidle]
      exact ih pass

/-- **The timeout pass follows the session.** -/
theorem timeoutConnection_follows (h : u.Follows peer start) : u.timeoutConnection.Follows peer start := by
  have hevents : u.timeoutConnection.sessionEvents = u.sessionEvents ++
      ((u.client.listeners.filter (idle u.client.config.timeout u.env.now)).map fun l =>
        ClientEvent.error (.timeout l.serverAddr)).filterMap
          (ClientEvent.sessionEvent? (P := P)) := by
    unfold sessionEvents
    rw [← List.filterMap_append]
    exact congrArg _ (timeoutListeners_events _ _ _ _)
  obtain ⟨hlisteners, hstate⟩ := u.timeoutConnection_eq
  refine h.step hevents fun phase htracks => ?_
  by_cases hany : u.client.listeners.any (idle u.client.config.timeout u.env.now) = true
  · rw [if_pos hany] at hstate
    have hcut : ∀ e ∈ ((u.client.listeners.filter (idle u.client.config.timeout u.env.now)).map
        fun l => ClientEvent.error (.timeout l.serverAddr)).filterMap
          (ClientEvent.sessionEvent? (P := P)), e.IsAnswer = false ∧ e.NeedsSession = false := by
      intro e he
      obtain ⟨event, hevent, hmeaning⟩ := List.mem_filterMap.mp he
      obtain ⟨l, -, rfl⟩ := List.mem_map.mp hevent
      cases hmeaning
      exact ⟨rfl, rfl⟩
    obtain ⟨phase', hphase'⟩ := Session.Phase.exists_foldlM_next hcut phase
    exact ⟨phase', hphase', .of_disconnected hstate⟩
  · rw [if_neg hany] at hstate
    have hkept : ∀ l ∈ u.client.listeners,
        ¬idle u.client.config.timeout u.env.now l = true := by
      simpa using hany
    have hnone : u.client.listeners.filter (idle u.client.config.timeout u.env.now) = [] :=
      List.filter_eq_nil_iff.mpr hkept
    rw [hnone]
    refine ⟨phase, rfl, htracks.congr hstate fun _ addr hhead => ?_⟩
    have hall : u.client.listeners.filter
        (fun l => !idle u.client.config.timeout u.env.now l) = u.client.listeners :=
      List.filter_eq_self.mpr fun l hl => by simpa using hkept l hl
    unfold Client.addrs at hhead ⊢
    rw [hlisteners, hall]
    exact hhead

end ClientUpdate

/-! ## Runs -/

section Runs

variable [Rkyv P]

/-- **An update follows the session.** -/
theorem Client.update_follows {c : Client P} {handler : ClientHandler P} {incoming : Incoming}
    (env : Env) {u : ClientUpdate P} {peer : Option SocketAddr} {phase : Session.Phase SocketAddr}
    (hnodup : c.addrs.Nodup)
    (haccepts : ∀ datagram ∈ incoming.datagrams, peerAccepts peer datagram.1 = true)
    (hquery : c.state = .connecting ∨ c.state = .connected →
      ∀ l, c.listeners.head? = some l → l.VersionQueryDue c.config env.now →
        ∀ error, env.answer env.attempts (l.serverAddr, []) ≠ .failed error)
    (h : c.Tracks peer phase) (hupdate : c.update handler incoming env = .ok u) : u.Follows peer phase := by
  obtain ⟨v, hreceive, rfl⟩ := update_eq_ok hupdate
  have hstart : ({ client := c, env, events := [] } : ClientUpdate P).Follows peer phase :=
    ⟨phase, rfl, h⟩
  have hpass := ClientUpdate.updateListeners_follows hnodup hquery hstart
  exact ClientUpdate.timeoutConnection_follows (ClientUpdate.receive_follows hpass haccepts hreceive)

namespace ClientRun

/-- While the client is connecting or connected, no update finds that a version query to the server
at position 0 is due and fails. -/
def KeepsListener (r : ClientRun P) : ClientOp P → Prop
  | .update _ _ env =>
      r.client.state = .connecting ∨ r.client.state = .connected →
        ∀ l, r.client.listeners.head? = some l → l.VersionQueryDue r.client.config env.now →
          ∀ error, env.answer [] (l.serverAddr, []) ≠ .failed error
  | _ => True

/-- The session events of what is observed in an operation. -/
def sessionEvents (r : ClientRun P) (op : ClientOp P) : List (Session.Event SocketAddr) :=
  (r.observe op).filterMap ClientObservation.sessionEvent?

variable {peer : Option SocketAddr} {phase : Session.Phase SocketAddr}

/-- What a call that sends to the connected server means for the session. -/
theorem sendConnected_follows {c c' : Client P} {packet : ClientConnectionPacket P}
    {state : ClientState} {success : ClientObservation P} {env env' : Env}
    {result : Except SendError PacketId} (h : c.Tracks peer phase)
    (hsend : c.sendConnected packet state env = .ok (result, c', env'))
    (hsuccess : ∀ addr, c.addrs.head? = some addr → peer = some addr → phase = .opened addr →
      ∃ e phase', success.sessionEvent? = some e ∧ phase.next e = some phase' ∧
        (c'.state = state → c'.addrs.head? = some addr → c'.Tracks peer phase')) :
    ∃ phase', ((ClientObservation.ofCall success result).filterMap
        ClientObservation.sessionEvent?).foldlM Session.Phase.next phase = some phase' ∧
      c'.Tracks peer phase' := by
  rcases Client.sendConnected_cases hsend with ⟨-, rfl, rfl⟩ | ⟨-, ⟨error, rfl⟩, hended⟩ |
    ⟨hstate, hstate', hfront, packetId, l, rfl, -⟩
  · exact ⟨phase, rfl, h⟩
  · obtain ⟨phase', hnext⟩ := Session.Phase.exists_next (e := .cut) rfl rfl phase
    refine ⟨phase', ?_, .of_disconnected hended⟩
    simp [ClientObservation.ofCall, ClientObservation.sessionEvent?, hnext]
  · obtain ⟨addr, hhead, hpeer, hopened⟩ := h.connected hstate
    obtain ⟨e, phase', hmeaning, hnext, htracks⟩ := hsuccess addr hhead hpeer hopened
    refine ⟨phase', ?_, htracks hstate' (hfront.head?_addrs hhead)⟩
    simp [ClientObservation.ofCall, hmeaning, hnext]

end ClientRun

namespace SocketRun

variable {r r' : SocketRun P} {o : SocketOp P} {phase : Session.Phase SocketAddr}

omit [Rkyv P] in
/-- Only a connect call of a client that is disconnected changes the peer of the socket. -/
theorem peerAfter_eq (h : o.connectsTo = none ∨ r.run.client.state ≠ .disconnected) :
    r.peerAfter o = r.peer := by
  unfold peerAfter
  split_ifs with hstate
  · rw [h.resolve_right (not_not.mpr hstate)]
    rfl
  · rfl

omit [Rkyv P] in
/-- What is received passes the filter. -/
theorem accepts_of_mem_received {incoming : Incoming} {datagram : SocketAddr × Bytes}
    (h : datagram ∈ (r.received incoming).datagrams) : peerAccepts r.peer datagram.1 = true :=
  (List.mem_filter.mp h).2

/-- **Step lemma.**  What is observed in an operation is allowed in the phase that fits to the client,
and leads to one that fits to it afterwards. -/
theorem step_follows (hnodup : r.run.client.addrs.Nodup) (hkeeps : r.run.KeepsListener o.op)
    (h : r.run.client.Tracks r.peer phase) (hstep : r.step o = some r') :
    ∃ phase', (r.run.sessionEvents (r.filtered o.op)).foldlM Session.Phase.next phase =
      some phase' ∧ r'.run.client.Tracks r'.peer phase' := by
  obtain ⟨hrun, hpeer⟩ := step_eq_some hstep
  rw [hpeer]
  clear hpeer hstep
  obtain ⟨run, peer⟩ := r
  obtain ⟨run', peer'⟩ := r'
  obtain ⟨op, unnamed⟩ := o
  dsimp only at hrun hnodup hkeeps h ⊢
  cases op with
  | listen serverAddr env =>
    cases hrun
    rw [peerAfter_eq (Or.inl rfl)]
    exact ⟨phase, rfl, h.of_steady (run.client.listen_steady serverAddr env.start)⟩
  | query serverAddr query env =>
    obtain ⟨⟨result, client, env'⟩, hquery, hr⟩ := exists_of_bind_toOption hrun
    cases hr
    rw [peerAfter_eq (Or.inl rfl)]
    exact ⟨phase, rfl, h.of_steady (Client.query_steady hquery)⟩
  | connect resolved connect env =>
    obtain ⟨⟨result, client, env'⟩, hconnect, hr⟩ := exists_of_bind_toOption hrun
    cases hr
    dsimp only [filtered]
    rcases Client.connect_cases hconnect with ⟨error, rfl, hstate, hsame, -⟩ |
      ⟨packetId, serverAddr, index, l, l', rfl, rfl, hstate, hposition, hsends, hclient⟩
    · simp only [ClientRun.sessionEvents, ClientRun.observe, hconnect]
      by_cases hdisconnected : run.client.state = .disconnected
      · exact ⟨phase, rfl, .of_disconnected (hstate.trans hdisconnected)⟩
      · rw [peerAfter_eq (Or.inr hdisconnected)]
        refine ⟨phase, rfl, ?_⟩
        rw [show client = run.client from hsame hdisconnected]
        exact h
    · -- the session is requested from the peer, wherever its listener is
      have hafter : peerAfter { run, peer } ⟨.connect (.ok serverAddr) connect env, unnamed⟩ =
          some serverAddr := by
        rw [peerAfter, if_pos hstate]
        rfl
      have haddrs : client.addrs = run.client.addrs := by
        rw [hclient]
        exact Client.addrs_set hsends.get hsends.evolves.serverAddr
      have hconnecting : client.state = .connecting := by
        rw [hclient]
      obtain ⟨front, hhead⟩ : ∃ front, client.addrs.head? = some front := by
        have hmem := Client.mem_addrs_of_position hposition
        rw [haddrs]
        exact ⟨_, List.head?_eq_some_head (List.ne_nil_of_mem hmem)⟩
      simp only [ClientRun.sessionEvents, ClientRun.observe, hconnect]
      rw [hafter]
      refine ⟨.requested serverAddr, ?_, fun _ => ⟨front, serverAddr, hhead, rfl, fun _ => rfl⟩,
        fun hc => ?_⟩
      · cases phase <;> rfl
      · rw [hconnecting] at hc
        cases hc
  | disconnect disconnect env =>
    obtain ⟨⟨result, client, env'⟩, hdisconnect, hr⟩ := exists_of_bind_toOption hrun
    cases hr
    rw [peerAfter_eq (Or.inl rfl)]
    simp only [filtered, ClientRun.sessionEvents, ClientRun.observe, hdisconnect]
    refine ClientRun.sendConnected_follows h hdisconnect fun addr _ _ hopened => ?_
    subst hopened
    refine ⟨.close, .idle, rfl, rfl, fun hstate _ => ?_⟩
    exact .of_inactive (by rw [hstate]; decide) (by rw [hstate]; decide)
  | send packet env =>
    obtain ⟨⟨result, client, env'⟩, hsend, hr⟩ := exists_of_bind_toOption hrun
    cases hr
    rw [peerAfter_eq (Or.inl rfl)]
    simp only [filtered, ClientRun.sessionEvents, ClientRun.observe, hsend]
    refine ClientRun.sendConnected_follows h hsend fun addr _ hpeer hopened => ?_
    subst hopened
    refine ⟨.use, .opened addr, rfl, rfl, fun hstate hhead => ⟨fun hc => ?_, fun _ => ?_⟩⟩
    · rw [hstate] at hc
      cases hc
    · exact ⟨addr, hhead, hpeer, rfl⟩
  | forget serverAddr =>
    cases hrun
    rw [peerAfter_eq (Or.inl rfl)]
    exact ⟨phase, rfl, h.of_steady (run.client.forget_steady serverAddr)⟩
  | forgetAll =>
    obtain ⟨client, hforget, hr⟩ := exists_of_bind_toOption hrun
    cases hr
    rw [peerAfter_eq (Or.inl rfl)]
    exact ⟨phase, rfl, h.of_steady (Client.forgetAll_steady hforget)⟩
  | refreshAll env =>
    cases hrun
    rw [peerAfter_eq (Or.inl rfl)]
    refine ⟨phase, rfl, h.congr rfl fun _ addr hhead => ?_⟩
    rw [← hhead]
    exact congrArg List.head? (run.client.refreshAll_addrs env.start)
  | update handler incoming env =>
    obtain ⟨u, hupdate, rfl⟩ := ClientRun.step_update hrun
    rw [peerAfter_eq (Or.inl rfl)]
    obtain ⟨phase', hphase', htracks⟩ := Client.update_follows env.start hnodup
      (fun datagram hmem => accepts_of_mem_received hmem) hkeeps h hupdate
    refine ⟨phase', ?_, htracks⟩
    simp only [filtered, ClientRun.sessionEvents, ClientRun.observe, hupdate, List.filterMap_map]
    exact hphase'

end SocketRun

namespace ObservedRun

/-- The beginning: nothing was observed yet. -/
def init (config : ClientConfig) : ObservedRun P where
  run := .init config
  trace := []

/-- One operation, on what the socket receives; there is no next state if it panics. -/
def step (r : ObservedRun P) (o : SocketOp P) : Option (ObservedRun P) :=
  (r.run.step o).map fun run =>
    { run, trace := r.trace ++ r.run.run.observe (r.run.filtered o.op) }

/-- The transition system of a client that is observed. -/
def system (P : Packets) [Rkyv P] : Lts (ObservedRun P) (SocketOp P) where
  step := step

omit [Rkyv P] in
/-- The session events of everything observed so far. -/
def sessionEvents (r : ObservedRun P) : List (Session.Event SocketAddr) :=
  r.trace.filterMap ClientObservation.sessionEvent?

/-- The addresses are distinct, and what was observed so far is allowed and leads to a phase that
fits to the client. -/
structure Invariant (r : ObservedRun P) : Prop where
  nodup : r.run.run.client.addrs.Nodup
  follows : ∃ phase, Session.Phase.after r.sessionEvents = some phase ∧
    r.run.run.client.Tracks r.run.peer phase

variable {r r' : ObservedRun P} {o : SocketOp P}

omit [Rkyv P] in
theorem invariant_init (config : ClientConfig) : (init config : ObservedRun P).Invariant :=
  ⟨List.nodup_nil, .idle, rfl, .of_disconnected rfl⟩

/-- **Step lemma.** -/
theorem Invariant.step (h : r.Invariant) (hkeeps : r.run.run.KeepsListener o.op)
    (hstep : r.step o = some r') : r'.Invariant := by
  unfold ObservedRun.step at hstep
  rw [Option.map_eq_some_iff] at hstep
  obtain ⟨run, hrun, rfl⟩ := hstep
  obtain ⟨phase, hphase, htracks⟩ := h.follows
  obtain ⟨phase', hphase', htracks'⟩ := SocketRun.step_follows h.nodup hkeeps htracks hrun
  obtain ⟨hclient, -⟩ := SocketRun.step_eq_some hrun
  refine ⟨ClientRun.addrs_nodup_step h.nodup hclient, phase', ?_, htracks'⟩
  unfold sessionEvents
  rw [List.filterMap_append, Session.Phase.after_append]
  exact Option.bind_eq_some_iff.mpr ⟨phase, hphase, hphase'⟩

/-- **The callback protocol of a client.**  If in a run of a client and its socket no version query to
the server at position 0 fails in an update while the client is connecting or connected, then what is
observed is lawful: `accept` and `reject` answer a successful connect call, at most one of them each;
`packet`, `kick` and successful calls of `send` and `disconnect` come after an `accept` that answered the
last connect call, since when the connection did not end.  In particular there is at most one `accept`
or `reject` between two successful connect calls. -/
theorem observed_lawful {config : ClientConfig}
    (hrun : (system P).GuardedRun (fun r o => r.run.run.KeepsListener o.op) (init config) r) :
    Session.Lawful r.sessionEvents ∧
      ∀ before between after, r.trace = before ++ (between ++ after) →
        (∀ o ∈ between, ¬o.IsConnected = true) → between.countP ClientObservation.IsAnswer ≤ 1 := by
  have hinvariant : r.Invariant :=
    hrun.invariant (fun _ _ _ h hkeeps hstep => h.step hkeeps hstep) (invariant_init config)
  obtain ⟨phase, hphase, -⟩ := hinvariant.follows
  have hlawful : Session.Lawful r.sessionEvents :=
    Session.lawful_iff.mpr (by rw [hphase]; rfl)
  refine ⟨hlawful, fun before between after htrace hbetween => ?_⟩
  unfold sessionEvents at hlawful
  rw [htrace, List.filterMap_append, List.filterMap_append] at hlawful
  have hle := hlawful.countP_isAnswer_le_one fun e he => ?_
  · rw [List.countP_filterMap] at hle
    refine le_trans (List.countP_mono_left fun o _ ho => ?_) hle
    unfold ClientObservation.IsAnswer at ho
    split at ho
    · rfl
    · rfl
    · cases ho
  · obtain ⟨o, ho, hmeaning⟩ := List.mem_filterMap.mp he
    have hnot := hbetween o ho
    cases o with
    | connected serverAddr => exact absurd rfl hnot
    | told event => exact ClientEvent.not_isRequest hmeaning
    | _ =>
      cases hmeaning
      exact Bool.false_ne_true

/-- The version query of an update to the server at position 0 would not fail. -/
def checkListener (r : ObservedRun P) (o : SocketOp P) : Bool :=
  match o.op with
  | .update _ _ env =>
      r.run.run.client.listeners.head?.all fun l => env.answer [] (l.serverAddr, []) = .sent
  | _ => true

omit [Rkyv P] in
theorem checkListener_sound (h : checkListener r o = true) : r.run.run.KeepsListener o.op := by
  obtain ⟨op, unnamed⟩ := o
  cases op with
  | update handler incoming env =>
    intro _ l hl _ error hanswer
    simp [checkListener, hl, hanswer] at h
  | _ => trivial

/-- How a client with default packets listens to server 1, connects to it and is accepted. -/
def connectToFirst : List (ClientOp DefaultPackets) :=
  [.listen 1 (.accepting 0), ClientRun.updateWith [(1, ClientRun.versionReply)] (.accepting 1),
    .connect (.ok 1) () (.accepting 2),
    ClientRun.updateWith [(1, ClientRun.acceptPart)] (.accepting 3)]

/-- A client that listens to two servers is accepted by one of them, the other one is not heard any
more, and then the client disconnects. -/
theorem observed_lawful_disconnected :
    ∃ r : ObservedRun DefaultPackets,
      (system DefaultPackets).GuardedRun (fun r o => r.run.run.KeepsListener o.op)
        (init .default) r ∧
      r.run.run.client.addrs = [1, 2] ∧ r.sessionEvents = [.request 1, .grant, .close] ∧
      (Session.Lawful r.sessionEvents ∧
        ∀ before between after, r.trace = before ++ (between ++ after) →
          (∀ o ∈ between, ¬o.IsConnected = true) →
          between.countP ClientObservation.IsAnswer ≤ 1) := by
  obtain ⟨r, hrun, hr⟩ := Lts.exists_guardedRun (system DefaultPackets)
    (fun r o => r.run.run.KeepsListener o.op) checkListener (init .default)
    ((connectToFirst ++ [.listen 2 (.accepting 4),
      ClientRun.updateWith [(2, ClientRun.versionReply)] (.accepting 5),
      .disconnect () (.accepting 6)]).map fun op => ⟨op, none⟩)
    (fun r => decide (r.run.run.client.addrs = [1, 2] ∧
      r.sessionEvents = [.request 1, .grant, .close]))
    (fun _ _ _ => checkListener_sound) (by decide +kernel)
  obtain ⟨haddrs, hevents⟩ := of_decide_eq_true hr
  exact ⟨r, hrun, haddrs, hevents, observed_lawful hrun⟩

/-- A kick by a server with default packets: an only part. -/
def kickPart : Bytes :=
  partDatagram true (.replicate 9) 0 [3]

/-- A connected client refreshes its servers.  When the next version query to the server fails, the
handler is told of the error and the listener is dropped, but the client is connected still.  So
when it listens to the server again it can be kicked. -/
theorem observed_lawful_wrong :
    ∃ r : ObservedRun DefaultPackets,
      (system DefaultPackets).GuardedRun (fun _ _ => True) (init .default) r ∧
      r.sessionEvents = [.request 1, .grant, .fail 1, .close] ∧ r.run.peer = some 1 ∧
      ¬Session.Lawful r.sessionEvents := by
  obtain ⟨r, hrun, hr⟩ := Lts.exists_guardedRun (system DefaultPackets)
    (fun _ _ => True) (fun _ _ => true) (init .default)
    ((connectToFirst ++
      [.refreshAll (.accepting 4), ClientRun.updateWith [] (.unreachable 2000),
        .listen 1 (.accepting 2001),
        ClientRun.updateWith [(1, ClientRun.versionReply)] (.accepting 2002),
        ClientRun.updateWith [(1, kickPart)] (.accepting 2003)]).map fun op => ⟨op, none⟩)
    (fun r => decide (r.sessionEvents = [.request 1, .grant, .fail 1, .close] ∧
      r.run.peer = some 1))
    (fun _ _ _ _ => trivial) (by decide +kernel)
  obtain ⟨hevents, hpeer⟩ := of_decide_eq_true hr
  refine ⟨r, hrun, hevents, hpeer, fun hlawful => ?_⟩
  rw [Session.lawful_iff, hevents] at hlawful
  cases hlawful

end ObservedRun

end Runs

end Ultinet
