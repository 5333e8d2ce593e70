import Ultinet.Net.ClientTraffic
import Ultinet.Net.ServerPanics

/-!
# Where an update of the client panics

A client has buffers for each compatible server.  What new buffers have and every step of some buffers
keeps, all of them have in every run (`ClientRun.allBuffers`), as the buffers of a server do.  With it,
an update of the client panics exactly if one of the datagrams it handles is a part that makes
receiving panic, or completes a packet that makes its own validation panic
(`ClientRun.update_panics_iff`).
-/

namespace Ultinet

variable {P : Packets} {I : PacketBuffers → Prop}

/-! ## The buffers of a client -/

/-- The buffers for a server have a property, if there are any. -/
def ServerListener.BuffersHold (I : PacketBuffers → Prop) (l : ServerListener P) : Prop :=
  ∀ buffers lastInteraction, l.state = .compatible buffers lastInteraction → I buffers

/-- The buffers for all servers have a property. -/
def AllBuffersHold (I : PacketBuffers → Prop) (ls : List (ServerListener P)) : Prop :=
  ∀ l ∈ ls, l.BuffersHold I

namespace ServerListener

/-- There are no buffers for a server that is not compatible. -/
theorem BuffersHold.of_not_isCompatible {l : ServerListener P} (h : l.state.isCompatible = false) :
    l.BuffersHold I := by
  intro buffers lastInteraction hstate
  rw [hstate] at h
  cases h

/-- Refreshing a listener drops its buffers. -/
theorem refresh_buffersHold {l : ServerListener P} {env : Env} (hl : l.BuffersHold I) :
    (l.refresh env).2.1.BuffersHold I := by
  unfold refresh pendingVersionQuery sendVersionQuery
  rcases henv : env.send l.serverAddr [] with ⟨error | sent, env'⟩
  · exact hl
  · exact .of_not_isCompatible rfl

/-- Updating a listener updates its buffers. -/
theorem update_buffersHold {l l' : ServerListener P} {state state' : Option ClientState}
    {config : ClientConfig} {env env' : Env} {error : Option IoError}
    (hI : ∀ addr b b', I b → PacketBuffers.Step addr b b' → I b') (hl : l.BuffersHold I)
    (h : l.update state config env = (some l', state', error, env')) : l'.BuffersHold I := by
  unfold update at h
  cases hstate : l.state with
  | pendingVersion lastVersionQuery =>
    rw [hstate] at h
    dsimp only at h
    split_ifs at h
    · rcases hsend : sendVersionQuery l.serverAddr env with ⟨error | sent, env''⟩ <;>
        rw [hsend] at h <;> cases h
      exact .of_not_isCompatible rfl
    · cases h
      exact hl
  | compatible buffers lastInteraction =>
    rw [hstate] at h
    dsimp only at h
    rcases hupdate : buffers.update config.connection.resendDelay config.connection.maxMissedAcks
      config.connection.receiveTimeout l.serverAddr env with ⟨error | done, buffers', env''⟩ <;>
      rw [hupdate] at h <;> cases h
    intro buffers'' lastInteraction' heq
    cases heq
    exact hI l.serverAddr buffers buffers' (hl buffers lastInteraction hstate) (.update hupdate)
  | incompatible incompatibility =>
    rw [hstate] at h
    cases h
    exact hl

end ServerListener

namespace AllBuffersHold

variable {ls ls' : List (ServerListener P)}

/-- Listeners may be dropped. -/
theorem subset (h : AllBuffersHold I ls) (hsub : ls' ⊆ ls) : AllBuffersHold I ls' :=
  fun l hl => h l (hsub hl)

/-- A listener is replaced by one whose buffers have the property. -/
theorem set (h : AllBuffersHold I ls) {l : ServerListener P} (hl : l.BuffersHold I) (index : ℕ) :
    AllBuffersHold I (ls.set index l) := by
  intro l' hl'
  rcases List.mem_or_eq_of_mem_set hl' with hold | rfl
  · exact h l' hold
  · exact hl

/-- A listener gets buffers. -/
theorem setBuffers (h : AllBuffersHold I ls) (l : ServerListener P) {buffers : PacketBuffers}
    (hbuffers : I buffers) (lastInteraction index : ℕ) :
    AllBuffersHold I (ls.set index { l with state := .compatible buffers lastInteraction }) := by
  refine h.set (fun buffers' lastInteraction' heq => ?_) index
  cases heq
  exact hbuffers

end AllBuffersHold

/-! ## One operation -/

namespace Client

variable {c c' : Client P} {serverAddr : SocketAddr} {env env' : Env}

/-- A new listener has no buffers yet. -/
theorem getOrAddListener_allBuffers (serverAddr : SocketAddr) (env : Env)
    (h : AllBuffersHold I c.listeners) :
    AllBuffersHold I (c.getOrAddListener serverAddr env).2.1.listeners := by
  rcases c.getOrAddListener_cases serverAddr env with
    ⟨found, hposition, heq⟩ | ⟨-, lastVersionQuery, env'', heq⟩ | ⟨-, error, env'', heq⟩
  · rw [heq]
    exact h
  · rw [heq]
    intro l hl
    rcases List.mem_append.mp hl with hold | hnew
    · exact h l hold
    · rw [List.mem_singleton.mp hnew]
      exact .of_not_isCompatible rfl
  · rw [heq]
    exact h

/-- Listening to a server. -/
theorem listen_allBuffers (h : AllBuffersHold I c.listeners) :
    AllBuffersHold I (c.listen serverAddr env).2.1.listeners := by
  have hadd := getOrAddListener_allBuffers serverAddr env h
  unfold listen
  rcases hget : c.getOrAddListener serverAddr env with ⟨error | found, c', env'⟩ <;>
    rw [hget] at hadd <;> exact hadd

/-- Refreshing all listeners drops their buffers. -/
theorem refreshListeners_allBuffers {ls : List (ServerListener P)} (h : AllBuffersHold I ls) :
    AllBuffersHold I (refreshListeners ls env).2.1 := by
  induction ls generalizing env with
  | nil => exact h
  | cons l ls ih =>
    have hrest : AllBuffersHold I ls := h.subset (List.subset_cons_self l ls)
    have hl : (l.refresh env).2.1.BuffersHold I :=
      ServerListener.refresh_buffersHold (h l List.mem_cons_self)
    have htail : ∀ env', AllBuffersHold I (refreshListeners ls env').2.1 := fun env' => ih hrest
    unfold refreshListeners
    rcases hrefresh : l.refresh env with ⟨error | done, l', env'⟩
    · rw [hrefresh] at hl
      intro l'' hl''
      rcases List.mem_cons.mp hl'' with rfl | hmem
      · exact hl
      · exact hrest l'' hmem
    · rw [hrefresh] at hl
      intro l'' hl''
      rcases List.mem_cons.mp hl'' with rfl | hmem
      · exact hl
      · exact htail env' l'' hmem

/-- Forgetting a server adds no listener. -/
theorem forget_subset (c : Client P) (serverAddr : SocketAddr) :
    (c.forget serverAddr).2.listeners ⊆ c.listeners := by
  unfold forget
  split
  · exact List.Subset.refl _
  · split_ifs
    · exact List.Subset.refl _
    · exact (Vec.swapRemove_subperm c.listeners _).subset

/-- Forgetting all servers adds no listener. -/
theorem forgetAll_subset (h : c.forgetAll = .ok c') : c'.listeners ⊆ c.listeners := by
  unfold forgetAll at h
  split_ifs at h
  · cases h
    exact List.nil_subset _
  · cases hlisteners : c.listeners with
    | nil =>
      rw [hlisteners] at h
      cases h
    | cons l ls =>
      rw [hlisteners] at h
      cases h
      exact List.cons_subset_cons l (List.nil_subset ls)

section Sending

variable [Rkyv P] {packet : ClientConnectionPacket P}

/-- Sending a packet is a step of the buffers of one listener. -/
theorem Sends.allBuffers {index : ℕ} {l l' : ServerListener P} {sent : IoResult PacketId}
    (hI : ∀ addr b b', I b → PacketBuffers.Step addr b b' → I b')
    (hsends : c.Sends packet env index l sent l' env') (h : AllBuffersHold I c.listeners) :
    AllBuffersHold I (c.listeners.set index l') := by
  obtain ⟨buffers, lastInteraction, buffers', hstate, hsend, rfl⟩ := hsends.send
  exact h.setBuffers l (hI l.serverAddr buffers buffers'
    (h l hsends.mem buffers lastInteraction hstate) (.send hsend)) lastInteraction index

/-- A query sends a packet, or changes nothing. -/
theorem query_allBuffers {query : P.Query} {result : Except QueryError PacketId}
    (hI : ∀ addr b b', I b → PacketBuffers.Step addr b b' → I b')
    (hquery : c.query serverAddr query env = .ok (result, c', env'))
    (h : AllBuffersHold I c.listeners) : AllBuffersHold I c'.listeners := by
  cases query_outcome hquery with
  | refused error => exact getOrAddListener_allBuffers serverAddr env h
  | sends hposition hsends => exact hsends.allBuffers hI h

/-- Connecting sends a packet, or changes nothing. -/
theorem connect_allBuffers {peer : IoResult SocketAddr} {connect : P.Connect}
    {result : Except ConnectError PacketId}
    (hI : ∀ addr b b', I b → PacketBuffers.Step addr b b' → I b')
    (hconnect : c.connect peer connect env = .ok (result, c', env'))
    (h : AllBuffersHold I c.listeners) : AllBuffersHold I c'.listeners := by
  cases connect_outcome hconnect with
  | notDisconnected peer hstate => exact h
  | noPeer hstate error => exact h
  | refused hstate addr herror => exact getOrAddListener_allBuffers addr env h
  | failed hstate hposition hsends => exact hsends.allBuffers hI h
  | sends hstate hposition hsends => exact hsends.allBuffers hI h

/-- A call that sends to the connected server. -/
theorem sendConnected_allBuffers {state : ClientState} {result : Except SendError PacketId}
    (hI : ∀ addr b b', I b → PacketBuffers.Step addr b b' → I b')
    (hsend : c.sendConnected packet state env = .ok (result, c', env'))
    (h : AllBuffersHold I c.listeners) : AllBuffersHold I c'.listeners := by
  cases sendConnected_outcome hsend with
  | notConnected hstate => exact h
  | failed hstate hsends =>
    exact (hsends.allBuffers hI h).subset
      (Vec.swapRemove_subperm (c.listeners.set 0 _) 0).subset
  | sends hstate hsends => exact hsends.allBuffers hI h

end Sending

end Client

/-! ## An update -/

namespace ClientUpdate

variable {u u' : ClientUpdate P}

/-- The pass over the listeners. -/
theorem updateListeners_allBuffers (hI : ∀ addr b b', I b → PacketBuffers.Step addr b b' → I b')
    (h : AllBuffersHold I u.client.listeners) :
    AllBuffersHold I u.updateListeners.client.listeners := by
  intro l' hl'
  obtain ⟨pass, l, hl, hkept⟩ := Vec.exists_of_mem_retainMut hl'
  unfold visitListener at hkept
  rcases hupdate : l.update (if pass.connected then some pass.state else none) u.client.config
    pass.env with ⟨kept, state, error, env⟩
  rw [hupdate] at hkept
  cases hkept
  exact ServerListener.update_buffersHold hI (h l hl) hupdate

/-- A compatible server gets new buffers. -/
theorem handleVersion_allBuffers {handler : ClientHandler P} {index : ℕ}
    {listener : ServerListener P} {buf : Bytes} (hnew : ∀ n, I (.new n))
    (h : AllBuffersHold I u.client.listeners) :
    AllBuffersHold I (u.handleVersion handler index listener buf).client.listeners := by
  unfold handleVersion
  split
  · exact h
  · split_ifs
    · split
      · exact h
      · dsimp only
        split
        · exact h.setBuffers listener (hnew _) _ index
        · exact h.set (.of_not_isCompatible rfl) index
    · exact h

section Receive

variable [Rkyv P] {handler : ClientHandler P} {serverAddr : SocketAddr} {buf : Bytes}

/-- A datagram from a compatible server. -/
theorem handleCompatible_allBuffers {isConnectionListener : Bool} {index : ℕ}
    {listener : ServerListener P} {buffers : PacketBuffers}
    (hI : ∀ addr b b', I b → PacketBuffers.Step addr b b' → I b')
    (hhandle : u.handleCompatible isConnectionListener index listener buffers buf = .ok u')
    (h : AllBuffersHold I u.client.listeners) (hbuffers : I buffers) :
    AllBuffersHold I u'.client.listeners := by
  unfold handleCompatible at hhandle
  dsimp only at hhandle
  split_ifs at hhandle with hping
  · cases hhandle
    rw [(handlePing_cases _ listener.serverAddr buf).1]
    exact h.setBuffers listener hbuffers _ index
  · rw [setListener_env] at hhandle
    obtain ⟨⟨result, buffers', env'⟩, hstep, hresult⟩ := exists_of_bind_ok hhandle
    rw [(resulted hresult).cases.1]
    dsimp only [setListener_client, Client.setListener_listeners]
    rw [List.set_set]
    exact h.setBuffers listener (hI listener.serverAddr buffers buffers' hbuffers (.handle hstep))
      _ index

/-- A datagram arrives. -/
theorem handleDatagram_allBuffers (hnew : ∀ n, I (.new n))
    (hI : ∀ addr b b', I b → PacketBuffers.Step addr b b' → I b')
    (hhandle : u.handleDatagram handler serverAddr buf = .ok u')
    (h : AllBuffersHold I u.client.listeners) : AllBuffersHold I u'.client.listeners := by
  unfold handleDatagram at hhandle
  cases hposition : u.client.position serverAddr with
  | none =>
    rw [hposition] at hhandle
    cases hhandle
    exact h
  | some found =>
    obtain ⟨index, listener⟩ := found
    rw [hposition] at hhandle
    obtain ⟨hget, -⟩ := Client.position_eq_some hposition
    dsimp only at hhandle
    cases hstate : listener.state with
    | pendingVersion lastVersionQuery =>
      rw [hstate] at hhandle
      cases hhandle
      exact handleVersion_allBuffers hnew h
    | compatible buffers lastInteraction =>
      rw [hstate] at hhandle
      exact handleCompatible_allBuffers hI hhandle h
        (h listener (List.mem_of_getElem? hget) buffers lastInteraction hstate)
    | incompatible error =>
      rw [hstate] at hhandle
      cases hhandle
      exact h

/-- Handle some datagrams, one after the other. -/
def handleDatagrams (handler : ClientHandler P) (u : ClientUpdate P)
    (datagrams : List (SocketAddr × Bytes)) : Exec (ClientUpdate P) :=
  datagrams.foldlM (fun u datagram => u.handleDatagram handler datagram.1 (recv datagram.2)) u

/-- Handling datagrams one after the other. -/
theorem handleDatagrams_allBuffers {datagrams : List (SocketAddr × Bytes)} (hnew : ∀ n, I (.new n))
    (hI : ∀ addr b b', I b → PacketBuffers.Step addr b b' → I b')
    (hfold : u.handleDatagrams handler datagrams = .ok u')
    (h : AllBuffersHold I u.client.listeners) : AllBuffersHold I u'.client.listeners := by
  have hloop : AllBuffersHold I u.client.listeners → AllBuffersHold I u'.client.listeners := by
    refine Vec.foldlM_rule (R := fun u v : ClientUpdate P =>
      AllBuffersHold I u.client.listeners → AllBuffersHold I v.client.listeners)
      (fun _ => id) (fun _ _ _ huv hvw hu => hvw (huv hu)) (fun u v datagram hmem hv hu => ?_) hfold
    exact handleDatagram_allBuffers hnew hI hv hu
  exact hloop h

end Receive

end ClientUpdate

/-- A whole update. -/
theorem Client.update_allBuffers [Rkyv P] {c : Client P} {handler : ClientHandler P}
    {incoming : Incoming} {env : Env} {u : ClientUpdate P} (hnew : ∀ n, I (.new n))
    (hI : ∀ addr b b', I b → PacketBuffers.Step addr b b' → I b')
    (hupdate : c.update handler incoming env = .ok u) (h : AllBuffersHold I c.listeners) :
    AllBuffersHold I u.client.listeners := by
  obtain ⟨v, hreceive, rfl⟩ := Client.update_eq_ok hupdate
  obtain ⟨w, hfold, rfl⟩ := ClientUpdate.receive_eq_ok hreceive
  have hpass := ClientUpdate.updateListeners_allBuffers
    (u := { client := c, env, events := [] }) hI h
  have hloop := ClientUpdate.handleDatagrams_allBuffers hnew hI hfold hpass
  rw [(ClientUpdate.timeoutConnection_eq _).1, ClientUpdate.client_reported]
  exact hloop.subset List.filter_sublist.subset

/-! ## Runs -/

namespace ClientRun

variable [Rkyv P] {r r' : ClientRun P}

/-- Every operation keeps what every step of some buffers keeps. -/
theorem step_allBuffers {op : ClientOp P} (hnew : ∀ n, I (.new n))
    (hI : ∀ addr b b', I b → PacketBuffers.Step addr b b' → I b')
    (h : AllBuffersHold I r.client.listeners) (hstep : r.step op = some r') :
    AllBuffersHold I r'.client.listeners := by
  cases op with
  | listen serverAddr env =>
    cases hstep
    exact Client.listen_allBuffers h
  | query serverAddr query env =>
    obtain ⟨⟨result, client, env'⟩, hquery, hr⟩ := exists_of_bind_toOption hstep
    cases hr
    exact Client.query_allBuffers hI hquery h
  | connect peer connect env =>
    obtain ⟨⟨result, client, env'⟩, hconnect, hr⟩ := exists_of_bind_toOption hstep
    cases hr
    exact Client.connect_allBuffers hI hconnect h
  | disconnect disconnect env =>
    obtain ⟨⟨result, client, env'⟩, hdisconnect, hr⟩ := exists_of_bind_toOption hstep
    cases hr
    exact Client.sendConnected_allBuffers hI hdisconnect h
  | send packet env =>
    obtain ⟨⟨result, client, env'⟩, hsend, hr⟩ := exists_of_bind_toOption hstep
    cases hr
    exact Client.sendConnected_allBuffers hI hsend h
  | forget serverAddr =>
    cases hstep
    exact h.subset (Client.forget_subset r.client serverAddr)
  | forgetAll =>
    obtain ⟨client, hforget, hr⟩ := exists_of_bind_toOption hstep
    cases hr
    exact h.subset (Client.forgetAll_subset hforget)
  | refreshAll env =>
    cases hstep
    exact Client.refreshListeners_allBuffers h
  | update handler incoming env =>
    obtain ⟨u, hupdate, rfl⟩ := step_update hstep
    exact Client.update_allBuffers hnew hI hupdate h

/-- **The rule for the buffers of a client.**  What new buffers have and every step of some buffers
keeps, all buffers have in every run. -/
theorem allBuffers {config : ClientConfig} {ok : ClientRun P → ClientOp P → Prop}
    (hrun : (system P).GuardedRun ok (init config) r) (hnew : ∀ n, I (.new n))
    (hI : ∀ addr b b', I b → PacketBuffers.Step addr b b' → I b') :
    AllBuffersHold I r.client.listeners := by
  refine hrun.invariant (I := fun r : ClientRun P => AllBuffersHold I r.client.listeners)
    (fun _ _ _ h _ hstep => step_allBuffers hnew hI h hstep) fun l hl => ?_
  cases hl

end ClientRun

/-! ## Where an update panics -/

namespace ClientUpdate

variable [Rkyv P] {u : ClientUpdate P} {handler : ClientHandler P} {serverAddr : SocketAddr}
  {buf : Bytes}

/-- The datagram comes from a compatible server, and its buffers panic, or the packet that it completes
is validated, which panics. -/
def Breaks (u : ClientUpdate P) (serverAddr : SocketAddr) (buf : Bytes) : Prop :=
  ∃ index listener buffers lastInteraction,
    u.client.position serverAddr = some (index, listener) ∧
      listener.state = .compatible buffers lastInteraction ∧ (buffers.Exhausts buf ∨
        buffers.BreaksCheck (Rkyv.checkServer (P := P)) buf listener.serverAddr u.env)

/-- What the buffers made of a datagram panics where the packet that is completed is validated. -/
theorem handleResult_panics_iff {isConnectionListener : Bool} {abort : Abort}
    {result : Except HandlePacketError PacketHandling} :
    u.handleResult serverAddr isConnectionListener result = .error abort ↔
      ∃ payload, result = .ok (.received (.reassembled payload)) ∧
        Rkyv.checkServer (P := P) payload = .error abort := by
  constructor
  · intro h
    unfold handleResult at h
    split at h
    case h_4 payload =>
      refine ⟨payload, rfl, (bind_eq_error_iff fun checked hrest => ?_).mp h⟩
      cases checked <;> cases hrest
    all_goals cases h
  · rintro ⟨payload, rfl, hcheck⟩
    unfold handleResult
    dsimp only [bind, Except.bind]
    rw [hcheck]

/-- Handling a datagram of a compatible server panics where its buffers do, and where the packet that is
completed is validated.  The buffers do not get the pings of the server the client is connecting to or
connected with, but no ping makes them panic. -/
theorem handleCompatible_panics_iff {isConnectionListener : Bool} {index : ℕ}
    {listener : ServerListener P} {buffers : PacketBuffers} (hfed : buffers.AllFed) :
    (∃ abort, u.handleCompatible isConnectionListener index listener buffers buf = .error abort) ↔
      buffers.Exhausts buf ∨
        buffers.BreaksCheck (Rkyv.checkServer (P := P)) buf listener.serverAddr u.env := by
  have hbuffers := PacketBuffers.handle_panics_iff hfed buf listener.serverAddr u.env
  unfold handleCompatible
  dsimp only
  split_ifs with hping
  · refine iff_of_false ?_ ?_
    · rintro ⟨abort, hpanic⟩
      cases hpanic
    · intro hbreaks
      have hcons : ∃ kind data, buf = kind :: data ∧ PacketKind.tryFrom kind ≠ some .ping := by
        rcases hbreaks with hexhausts | hcheck
        · exact hexhausts.exists_eq_cons
        · exact hcheck.exists_eq_cons
      obtain ⟨kind, data, rfl, hkind⟩ := hcons
      exact hkind hping.2
  · rw [← hbuffers, setListener_env]
    constructor
    · rintro ⟨abort, hpanic⟩
      cases hhandle : buffers.handle buf listener.serverAddr u.env with
      | error abort' => exact Or.inl ⟨abort', rfl⟩
      | ok handled =>
        obtain ⟨result, buffers', env⟩ := handled
        rw [hhandle] at hpanic
        obtain ⟨payload, rfl, hcheck⟩ := handleResult_panics_iff.mp hpanic
        exact Or.inr ⟨payload, buffers', env, abort, hhandle, hcheck⟩
    · rintro (⟨abort, hpanic⟩ | ⟨payload, buffers', env, abort, hhandle, hcheck⟩)
      · refine ⟨abort, ?_⟩
        rw [hpanic]
        rfl
      · refine ⟨abort, ?_⟩
        rw [hhandle]
        exact handleResult_panics_iff.mpr ⟨payload, rfl, hcheck⟩

/-- **Where handling a datagram panics.** -/
theorem handleDatagram_panics_iff (h : AllBuffersHold PacketBuffers.AllFed u.client.listeners) :
    (∃ abort, u.handleDatagram handler serverAddr buf = .error abort) ↔
      u.Breaks serverAddr buf := by
  constructor
  · rintro ⟨abort, hpanic⟩
    unfold handleDatagram at hpanic
    cases hposition : u.client.position serverAddr with
    | none =>
      rw [hposition] at hpanic
      cases hpanic
    | some found =>
      obtain ⟨index, listener⟩ := found
      rw [hposition] at hpanic
      obtain ⟨hget, -⟩ := Client.position_eq_some hposition
      dsimp only at hpanic
      cases hstate : listener.state with
      | pendingVersion lastVersionQuery =>
        rw [hstate] at hpanic
        cases hpanic
      | incompatible error =>
        rw [hstate] at hpanic
        cases hpanic
      | compatible buffers lastInteraction =>
        rw [hstate] at hpanic
        have hfed := h listener (List.mem_of_getElem? hget) buffers lastInteraction hstate
        exact ⟨index, listener, buffers, lastInteraction, hposition, hstate,
          (handleCompatible_panics_iff hfed).mp ⟨abort, hpanic⟩⟩
  · rintro ⟨index, listener, buffers, lastInteraction, hposition, hstate, hbreaks⟩
    obtain ⟨hget, -⟩ := Client.position_eq_some hposition
    have hfed := h listener (List.mem_of_getElem? hget) buffers lastInteraction hstate
    unfold handleDatagram
    rw [hposition]
    dsimp only
    rw [hstate]
    exact (handleCompatible_panics_iff hfed).mpr hbreaks

/-- The receive loop panics where handling the datagrams does. -/
theorem receive_panics_iff {incoming : Incoming} :
    (∃ abort, u.receive handler incoming = .error abort) ↔
      ∃ abort, u.handleDatagrams handler incoming.datagrams = .error abort := by
  have hreceive : u.receive handler incoming = u.handleDatagrams handler incoming.datagrams >>=
      fun u => .ok (incoming.error.elim u fun error => u.tell (.error (.recv error))) := rfl
  rw [hreceive]
  refine exists_congr fun abort => bind_eq_error_iff fun v hrest => ?_
  cases hrest

end ClientUpdate

/-- An update panics where its receive loop does. -/
theorem Client.update_panics_iff_receive [Rkyv P] {c : Client P} {handler : ClientHandler P}
    {incoming : Incoming} {env : Env} :
    (∃ abort, c.update handler incoming env = .error abort) ↔
      ∃ abort, (ClientUpdate.updateListeners { client := c, env, events := [] }).receive handler
        incoming = .error abort := by
  have hupdate : c.update handler incoming env =
      (ClientUpdate.updateListeners { client := c, env, events := [] }).receive handler incoming >>=
        fun u => .ok u.timeoutConnection := rfl
  rw [hupdate]
  refine exists_congr fun abort => bind_eq_error_iff fun v hrest => ?_
  cases hrest

namespace ClientRun

variable [Rkyv P] {r : ClientRun P}

/-- **Where an update of the client panics.**  In every run, an update panics exactly if one of the
datagrams that arrive, after those before it were handled, is from a compatible server, and

* it is a part of a packet of several parts, and the block of 256 parts it belongs to and all below
  were received already, or it is the last one of all the parts there can be, or
* it completes a packet whose own validation panics. -/
theorem update_panics_iff {config : ClientConfig} {ok : ClientRun P → ClientOp P → Prop}
    (hrun : (system P).GuardedRun ok (init config) r) (handler : ClientHandler P)
    (incoming : Incoming) (env : Env) :
    (∃ abort, r.client.update handler incoming env = .error abort) ↔
      ∃ before datagram after u, incoming.datagrams = before ++ datagram :: after ∧
        (ClientUpdate.updateListeners { client := r.client, env, events := [] }).handleDatagrams
          handler before = .ok u ∧
        u.Breaks datagram.1 (recv datagram.2) := by
  have hall := allBuffers hrun PacketBuffers.allFed_new ServerRun.step_allFed
  have hpass := ClientUpdate.updateListeners_allBuffers
    (u := { client := r.client, env, events := [] }) ServerRun.step_allFed hall
  rw [Client.update_panics_iff_receive, ClientUpdate.receive_panics_iff]
  refine Vec.foldlM_eq_error_iff.trans ?_
  refine exists_congr fun before => exists_congr fun datagram => exists_congr fun after =>
    exists_congr fun u => and_congr_right fun _ => and_congr_right fun hbefore => ?_
  exact ClientUpdate.handleDatagram_panics_iff (ClientUpdate.handleDatagrams_allBuffers
    PacketBuffers.allFed_new ServerRun.step_allFed hbefore hpass)

/-- For instance, a client that found a server to be compatible. -/
theorem update_panics_iff_compatible :
    ∃ r, (system DefaultPackets).GuardedRun (fun _ _ => True) (init .default) r ∧
      r.client.compatibility 5 = some .compatible ∧ ∀ incoming env,
        ((∃ abort, r.client.update (.default _) incoming env = .error abort) ↔
          ∃ before datagram after u, incoming.datagrams = before ++ datagram :: after ∧
            (ClientUpdate.updateListeners { client := r.client, env, events := [] }).handleDatagrams
              (.default _) before = .ok u ∧
            u.Breaks datagram.1 (recv datagram.2)) := by
  obtain ⟨r, hrun, hr⟩ := Lts.exists_guardedRun (system DefaultPackets) (fun _ _ => True)
    (fun _ _ => true) (init .default)
    [.listen 5 (.accepting 0),
      .update (.default _) { datagrams := [(5, [PacketKind.version.toByte])] } (.accepting 1)]
    (fun r => (r.client.position 5).any fun found => found.2.state.isCompatible)
    (fun _ _ _ _ => trivial) (by decide +kernel)
  obtain ⟨⟨index, l⟩, hposition, hcompatible⟩ := (Option.any_eq_true _ _).mp hr
  refine ⟨r, hrun, ?_, fun incoming env => update_panics_iff hrun (.default _) incoming env⟩
  unfold Client.compatibility ServerListener.compatibility
  rw [hposition]
  dsimp only [Option.map_some]
  cases hstate : l.state with
  | compatible buffers lastInteraction => rfl
  | pendingVersion lastVersionQuery =>
    rw [hstate] at hcompatible
    cases hcompatible
  | incompatible error => cases error

end ClientRun

end Ultinet
