import Ultinet.Net.QueryRetry

/-!
# To whom a client talks

A client sends to the servers that its caller named and to nobody else, and until a server told a
version that a handler is compatible with, all it gets is empty datagrams, which ask for that version
(`Greeted.only_to_compatible`).

The step from one operation to a run is the same for all operations: what is in the listeners and what
was sent stay within what is allowed (`Gated`), and the addresses that were named and the datagrams
that arrived only become more.
-/

namespace Ultinet

variable {P : Packets}

/-! ## What a client is allowed to send -/

/-- All that was sent is allowed. -/
def Env.Within (allowed : SocketAddr × Bytes → Prop) (env : Env) : Prop :=
  ∀ datagram ∈ env.sent, allowed datagram

namespace Env.Within

variable {allowed : SocketAddr × Bytes → Prop} {env : Env} {addr : SocketAddr}

/-- Some datagrams to an address are tried, and some of them sent. -/
theorem record (h : env.Within allowed) {bufs : List Bytes}
    (hbufs : ∀ buf ∈ bufs, allowed (addr, buf)) (tried : List (SocketAddr × Bytes)) :
    (env.record tried (bufs.map (Prod.mk addr))).Within allowed := by
  intro datagram hmem
  rw [record_sent, List.mem_append] at hmem
  rcases hmem with hbefore | hnew
  · exact h datagram hbefore
  · obtain ⟨buf, hbuf, rfl⟩ := List.mem_map.mp hnew
    exact hbufs buf hbuf

/-- A datagram is sent, or not. -/
theorem send (h : env.Within allowed) {buf : Bytes} (hbuf : allowed (addr, buf)) :
    (env.send addr buf).2.Within allowed := by
  have hone : ∀ bufs ⊆ [buf],
      (env.record [(addr, buf)] (bufs.map (Prod.mk addr))).Within allowed := by
    intro bufs hsub
    refine h.record (fun buf' hmem => ?_) _
    rw [List.mem_singleton.mp (hsub hmem)]
    exact hbuf
  rcases env.send_cases addr buf with ⟨hsend, -⟩ | ⟨hsend, -⟩ | ⟨error, hsend, -⟩
  · rw [hsend]
    exact hone [buf] (List.Subset.refl _)
  · rw [hsend]
    exact hone [] (List.nil_subset _)
  · rw [hsend]
    exact hone [] (List.nil_subset _)

end Env.Within

section Gate

variable (named welcome : SocketAddr → Prop)

/-- A datagram to a server that was named, which is empty unless the server is welcome. -/
def Allowed (datagram : SocketAddr × Bytes) : Prop :=
  named datagram.1 ∧ (datagram.2 ≠ [] → welcome datagram.1)

/-- A listener for a server that was named, which is compatible only if the server is welcome. -/
structure ServerListener.Admitted (l : ServerListener P) : Prop where
  named : named l.serverAddr
  welcome : l.state.isCompatible = true → welcome l.serverAddr

/-- The listeners are admitted, and all that was sent is allowed. -/
structure Gated (ls : List (ServerListener P)) (env : Env) : Prop where
  admitted : ∀ l ∈ ls, l.Admitted named welcome
  within : env.Within (Allowed named welcome)

end Gate

variable {named welcome named' welcome' : SocketAddr → Prop}

namespace Allowed

/-- A server that was named may be asked for its version, with an empty datagram. -/
theorem query {addr : SocketAddr} (h : named addr) : Allowed named welcome (addr, []) :=
  ⟨h, fun hne => absurd rfl hne⟩

/-- More servers are named and welcome. -/
theorem mono {datagram : SocketAddr × Bytes} (h : Allowed named welcome datagram)
    (hnamed : ∀ a, named a → named' a) (hwelcome : ∀ a, welcome a → welcome' a) :
    Allowed named' welcome' datagram :=
  ⟨hnamed _ h.1, fun hne => hwelcome _ (h.2 hne)⟩

end Allowed

namespace ServerListener

variable {l l' : ServerListener P}

theorem Admitted.mono (h : l.Admitted named welcome) (hnamed : ∀ a, named a → named' a)
    (hwelcome : ∀ a, welcome a → welcome' a) : l.Admitted named' welcome' :=
  ⟨hnamed _ h.named, fun hcompatible => hwelcome _ (h.welcome hcompatible)⟩

/-- A compatible server may be sent anything. -/
theorem Admitted.allowed (h : l.Admitted named welcome) (hcompatible : l.state.isCompatible = true)
    (buf : Bytes) : Allowed named welcome (l.serverAddr, buf) :=
  ⟨h.named, fun _ => h.welcome hcompatible⟩

/-- Whatever stays a listener of the server, and was compatible if it is, stays admitted. -/
theorem Admitted.of_eq (h : l.Admitted named welcome) (haddr : l'.serverAddr = l.serverAddr)
    (hcompatible : l'.state.isCompatible = true → l.state.isCompatible = true) :
    l'.Admitted named welcome :=
  ⟨haddr ▸ h.named, fun hl' => haddr ▸ h.welcome (hcompatible hl')⟩

/-- A server is asked for its version. -/
theorem pendingVersionQuery_within {addr : SocketAddr} {env : Env} (haddr : named addr)
    (henv : env.Within (Allowed named welcome)) :
    (pendingVersionQuery (P := P) addr env).2.Within (Allowed named welcome) ∧
      ∀ state, (pendingVersionQuery (P := P) addr env).1 = .ok state → state.isCompatible = false := by
  have hsend := henv.send (.query haddr)
  unfold pendingVersionQuery sendVersionQuery
  rcases hquery : env.send addr [] with ⟨result, env'⟩
  rw [hquery] at hsend
  cases result with
  | error error => exact ⟨hsend, fun state hstate => by cases hstate⟩
  | ok sent =>
    refine ⟨hsend, fun state hstate => ?_⟩
    cases hstate
    rfl

/-- Refreshing a listener. -/
theorem refresh_gated {env : Env} (hl : l.Admitted named welcome)
    (henv : env.Within (Allowed named welcome)) :
    (l.refresh env).2.1.Admitted named welcome ∧
      (l.refresh env).2.2.Within (Allowed named welcome) := by
  obtain ⟨hsend, hstate⟩ := pendingVersionQuery_within (P := P) hl.named henv
  unfold refresh
  rcases hquery : pendingVersionQuery (P := P) l.serverAddr env with ⟨result, env'⟩
  rw [hquery] at hsend hstate
  cases result with
  | error error => exact ⟨hl, hsend⟩
  | ok state =>
    refine ⟨hl.of_eq rfl fun hcompatible => ?_, hsend⟩
    rw [hstate state rfl] at hcompatible
    cases hcompatible

/-- Updating a listener. -/
theorem update_gated {state state' : Option ClientState} {config : ClientConfig} {env env' : Env}
    {kept : Option (ServerListener P)} {error : Option IoError}
    (h : l.update state config env = (kept, state', error, env')) (hl : l.Admitted named welcome)
    (henv : env.Within (Allowed named welcome)) : env'.Within (Allowed named welcome) := by
  cases hcompatible : l.state.isCompatible with
  | true =>
    obtain ⟨tried, bufs, rfl⟩ := update_env h
    exact henv.record (fun buf _ => hl.allowed hcompatible buf) _
  | false =>
    have hsend := henv.send (.query hl.named)
    unfold update sendVersionQuery at h
    split at h
    · split_ifs at h
      · split at h <;> rename_i heq <;> rw [heq] at hsend <;> cases h <;> exact hsend
      · cases h
        exact henv
    · rename_i hstate
      rw [hstate] at hcompatible
      cases hcompatible
    · cases h
      exact henv

/-- A listener that is kept in an update is compatible only if it was. -/
theorem update_kept {state state' : Option ClientState} {config : ClientConfig} {env env' : Env}
    {error : Option IoError} (h : l.update state config env = (some l', state', error, env')) :
    l'.serverAddr = l.serverAddr ∧ (l'.state.isCompatible = true → l.state.isCompatible = true) := by
  unfold update at h
  split at h
  · rename_i hstate
    split_ifs at h
    · split at h <;> cases h
      exact ⟨rfl, fun hl' => by cases hl'⟩
    · cases h
      exact ⟨rfl, id⟩
  · rename_i hstate
    split at h <;> cases h
    exact ⟨rfl, fun _ => by rw [hstate]; rfl⟩
  · cases h
    exact ⟨rfl, id⟩

end ServerListener

/-! ## One operation -/

namespace Gated

variable {ls ls' : List (ServerListener P)} {env : Env}

/-- Listeners are dropped. -/
theorem subset (h : Gated named welcome ls env) (hsub : ls' ⊆ ls) : Gated named welcome ls' env :=
  ⟨fun l hl => h.admitted l (hsub hl), h.within⟩

/-- A listener gets a new state, which is compatible only if its server is welcome. -/
theorem setState (h : Gated named welcome ls env) {l : ServerListener P}
    (hl : l.Admitted named welcome) {state : ServerState P}
    (hstate : state.isCompatible = true → welcome l.serverAddr) (index : ℕ) :
    Gated named welcome (ls.set index { l with state }) env := by
  refine ⟨fun l' hl' => ?_, h.within⟩
  rcases List.mem_or_eq_of_mem_set hl' with hold | rfl
  · exact h.admitted l' hold
  · exact ⟨hl.named, hstate⟩

end Gated

namespace Client

variable {c c' : Client P} {serverAddr : SocketAddr} {env env' : Env}

/-- Looking for the listener of a server that was named. -/
theorem getOrAddListener_gated (h : Gated named welcome c.listeners env) (haddr : named serverAddr) :
    Gated named welcome (c.getOrAddListener serverAddr env).2.1.listeners
      (c.getOrAddListener serverAddr env).2.2 := by
  obtain ⟨hsend, hstate⟩ :=
    ServerListener.pendingVersionQuery_within (P := P) haddr h.within
  unfold getOrAddListener
  cases hposition : c.position serverAddr with
  | some found => exact h
  | none =>
    unfold ServerListener.new
    rcases hquery : ServerListener.pendingVersionQuery (P := P) serverAddr env with ⟨result, env'⟩
    rw [hquery] at hsend hstate
    cases result with
    | error error => exact ⟨h.admitted, hsend⟩
    | ok state =>
      refine ⟨fun l hl => ?_, hsend⟩
      rcases List.mem_append.mp hl with hold | hnew
      · exact h.admitted l hold
      · rw [List.mem_singleton.mp hnew]
        refine ⟨haddr, fun hcompatible => ?_⟩
        rw [hstate state rfl] at hcompatible
        cases hcompatible

theorem listen_gated (h : Gated named welcome c.listeners env) (haddr : named serverAddr) :
    Gated named welcome (c.listen serverAddr env).2.1.listeners (c.listen serverAddr env).2.2 := by
  have hadd := getOrAddListener_gated h haddr
  unfold listen
  split <;> rename_i heq <;> rw [heq] at hadd <;> exact hadd

/-- Refreshing the listeners, up to a query that fails. -/
theorem refreshListeners_gated {ls : List (ServerListener P)} (h : Gated named welcome ls env) :
    Gated named welcome (refreshListeners ls env).2.1 (refreshListeners ls env).2.2 := by
  induction ls generalizing env with
  | nil => exact h
  | cons l ls ih =>
    have hrest : ∀ l' ∈ ls, l'.Admitted named welcome := fun l' hl' =>
      h.admitted l' (List.mem_cons_of_mem l hl')
    obtain ⟨hl, henv⟩ := ServerListener.refresh_gated (h.admitted l List.mem_cons_self) h.within
    unfold refreshListeners
    rcases hrefresh : l.refresh env with ⟨result, l', env'⟩
    rw [hrefresh] at hl henv
    cases result with
    | error error =>
      refine ⟨fun l'' hl'' => ?_, henv⟩
      rcases List.mem_cons.mp hl'' with rfl | hmem
      · exact hl
      · exact hrest l'' hmem
    | ok _ =>
      obtain ⟨hadmitted, hwithin⟩ := ih ⟨hrest, henv⟩
      refine ⟨fun l'' hl'' => ?_, hwithin⟩
      rcases List.mem_cons.mp hl'' with rfl | hmem
      · exact hl
      · exact hadmitted l'' hmem

theorem forget_gated (h : Gated named welcome c.listeners env) (serverAddr : SocketAddr) :
    Gated named welcome (c.forget serverAddr).2.listeners env := by
  unfold forget
  split
  · exact h
  · split_ifs
    · exact h
    · exact h.subset (Vec.swapRemove_subperm c.listeners _).subset

theorem forgetAll_gated (h : Gated named welcome c.listeners env) (hforget : c.forgetAll = .ok c') :
    Gated named welcome c'.listeners env := by
  unfold forgetAll at hforget
  split_ifs at hforget
  · cases hforget
    exact h.subset (List.nil_subset _)
  · split at hforget
    · cases hforget
    · rename_i l ls hlisteners
      cases hforget
      refine h.subset ?_
      rw [hlisteners]
      exact List.cons_subset_cons l (List.nil_subset ls)

section Sending

variable [Rkyv P] {packet : ClientConnectionPacket P}

/-- A packet is given to the buffers of a compatible server. -/
theorem Sends.gated {index : ℕ} {l l' : ServerListener P} {sent : IoResult PacketId}
    (hsends : c.Sends packet env index l sent l' env') (h : Gated named welcome c.listeners env) :
    Gated named welcome (c.listeners.set index l') env' := by
  have hl := h.admitted l hsends.mem
  obtain ⟨buffers, lastInteraction, buffers', hstate, hsend, rfl⟩ := hsends.send
  have hcompatible : l.state.isCompatible = true := by
    rw [hstate]
    rfl
  obtain ⟨tried, bufs, rfl⟩ := PacketBuffers.send_env hsend
  have hset : Gated named welcome
      (c.listeners.set index { l with state := .compatible buffers' lastInteraction }) env :=
    h.setState hl (fun _ => hl.welcome hcompatible) index
  have hdrawn : env.newUuid.2.Within (Allowed named welcome) := h.within
  exact ⟨hset.admitted, hdrawn.record (fun buf _ => hl.allowed hcompatible buf) _⟩

theorem query_gated {query : P.Query} {result : Except QueryError PacketId}
    (hquery : c.query serverAddr query env = .ok (result, c', env'))
    (h : Gated named welcome c.listeners env) (haddr : named serverAddr) :
    Gated named welcome c'.listeners env' := by
  cases query_outcome hquery with
  | refused error => exact getOrAddListener_gated h haddr
  | sends hposition hsends => exact hsends.gated h

theorem connect_gated {peer : IoResult SocketAddr} {connect : P.Connect}
    {result : Except ConnectError PacketId}
    (hconnect : c.connect peer connect env = .ok (result, c', env'))
    (h : Gated named welcome c.listeners env) (haddr : ∀ addr, peer = .ok addr → named addr) :
    Gated named welcome c'.listeners env' := by
  cases connect_outcome hconnect with
  | notDisconnected peer hstate => exact h
  | noPeer hstate error => exact h
  | refused hstate addr herror => exact getOrAddListener_gated h (haddr addr rfl)
  | failed hstate hposition hsends => exact hsends.gated h
  | sends hstate hposition hsends => exact hsends.gated h

theorem sendConnected_gated {state : ClientState} {result : Except SendError PacketId}
    (hsend : c.sendConnected packet state env = .ok (result, c', env'))
    (h : Gated named welcome c.listeners env) : Gated named welcome c'.listeners env' := by
  cases sendConnected_outcome hsend with
  | notConnected hstate => exact h
  | failed hstate hsends =>
    exact (hsends.gated h).subset (Vec.swapRemove_subperm (c.listeners.set 0 _) 0).subset
  | sends hstate hsends => exact hsends.gated h

end Sending

end Client

/-! ## An update -/

/-- The version in a datagram, if it is a version packet. -/
def versionOf {P : Packets} : Bytes → Option P.Version
  | [] => none
  | kind :: data =>
      if PacketKind.tryFrom kind = some .version then VersionPacket.read data else none

namespace ClientUpdate

variable {u u' : ClientUpdate P}

/-- The pass over the listeners. -/
theorem updateListeners_gated (h : Gated named welcome u.client.listeners u.env) :
    Gated named welcome u.updateListeners.client.listeners u.updateListeners.env := by
  constructor
  · intro l' hl'
    obtain ⟨pass, l, hl, hkept⟩ := Vec.exists_of_mem_retainMut hl'
    unfold visitListener at hkept
    rcases hupdate : l.update (if pass.connected then some pass.state else none) u.client.config
      pass.env with ⟨kept, state, error, env⟩
    rw [hupdate] at hkept
    cases hkept
    obtain ⟨haddr, hcompatible⟩ := ServerListener.update_kept hupdate
    exact (h.admitted l hl).of_eq haddr hcompatible
  · refine Vec.retainMut_state
      (I := fun pass : Pass P => pass.env.Within (Allowed named welcome))
      (fun pass l hl hpass => ?_) h.within
    unfold visitListener
    rcases hupdate : l.update (if pass.connected then some pass.state else none) u.client.config
      pass.env with ⟨kept, state, error, env⟩
    exact ServerListener.update_gated hupdate (h.admitted l hl) hpass

/-- A version arrives: the server is welcome from now on if the handler is compatible with it. -/
theorem handleVersion_gated {handler : ClientHandler P} {index : ℕ} {listener : ServerListener P}
    {buf : Bytes} (h : Gated named welcome u.client.listeners u.env)
    (hl : listener.Admitted named welcome)
    (hwelcome : ∀ version, versionOf buf = some version →
      handler.compatibility u.events version = .ok () → welcome listener.serverAddr) :
    Gated named welcome (u.handleVersion handler index listener buf).client.listeners
      (u.handleVersion handler index listener buf).env := by
  unfold handleVersion
  split
  · exact h
  · rename_i kind data
    split_ifs with hkind
    · split
      · exact h
      · rename_i version hread
        have hversion : versionOf (kind :: data) = some version := by
          rw [versionOf, if_pos hkind, hread]
        dsimp only
        split
        · rename_i hok
          exact h.setState hl (fun _ => hwelcome version hversion hok) index
        · refine h.setState hl (fun hcompatible => ?_) index
          cases hcompatible
    · exact h

/-- A ping is sent back to a compatible server. -/
theorem handlePing_gated (h : Gated named welcome u.client.listeners u.env) {serverAddr : SocketAddr}
    {buf : Bytes} (hbuf : Allowed named welcome (serverAddr, buf)) :
    Gated named welcome (u.handlePing serverAddr buf).client.listeners
      (u.handlePing serverAddr buf).env := by
  have hsend := h.within.send hbuf
  refine ⟨?_, ?_⟩
  · rw [(u.handlePing_cases serverAddr buf).1]
    exact h.admitted
  · unfold handlePing
    dsimp only
    split <;> rename_i heq <;> rw [tell_env] at heq <;> rw [heq] at hsend <;> exact hsend

section Receive

variable [Rkyv P] {handler : ClientHandler P}

/-- A datagram from a compatible server. -/
theorem handleCompatible_gated {isConnectionListener : Bool} {index : ℕ}
    {listener : ServerListener P} {buffers : PacketBuffers} {lastInteraction : ℕ} {buf : Bytes}
    (hhandle : u.handleCompatible isConnectionListener index listener buffers buf = .ok u')
    (h : Gated named welcome u.client.listeners u.env) (hl : listener.Admitted named welcome)
    (hstate : listener.state = .compatible buffers lastInteraction) :
    Gated named welcome u'.client.listeners u'.env := by
  have hcompatible : listener.state.isCompatible = true := by
    rw [hstate]
    rfl
  have hset : ∀ buffers', Gated named welcome
      (u.client.listeners.set index { listener with state := .compatible buffers' u.env.now })
      u.env := fun buffers' => h.setState hl (fun _ => hl.welcome hcompatible) index
  unfold handleCompatible at hhandle
  dsimp only at hhandle
  split_ifs at hhandle with hping
  · cases hhandle
    exact handlePing_gated (hset buffers) (hl.allowed hcompatible buf)
  · rw [setListener_env] at hhandle
    obtain ⟨⟨result, buffers', env'⟩, hbuffers, hresult⟩ := exists_of_bind_ok hhandle
    obtain ⟨tried, bufs, rfl, -⟩ := PacketBuffers.handle_acks hbuffers
    rw [(resulted hresult).env, (resulted hresult).cases.1]
    refine ⟨?_, h.within.record (fun buf _ => hl.allowed hcompatible buf) _⟩
    dsimp only [setListener_client, Client.setListener_listeners]
    rw [List.set_set]
    exact (hset buffers').admitted

/-- A datagram arrives. -/
theorem handleDatagram_gated {serverAddr : SocketAddr} {buf : Bytes}
    (hhandle : u.handleDatagram handler serverAddr buf = .ok u')
    (h : Gated named welcome u.client.listeners u.env)
    (hwelcome : ∀ events version, versionOf buf = some version →
      handler.compatibility events version = .ok () → welcome serverAddr) :
    Gated named welcome u'.client.listeners u'.env := by
  unfold handleDatagram at hhandle
  cases hposition : u.client.position serverAddr with
  | none =>
    rw [hposition] at hhandle
    cases hhandle
    exact h
  | some found =>
    obtain ⟨index, listener⟩ := found
    rw [hposition] at hhandle
    obtain ⟨hget, rfl⟩ := Client.position_eq_some hposition
    have hl := h.admitted listener (List.mem_of_getElem? hget)
    dsimp only at hhandle
    split at hhandle
    · cases hhandle
      exact handleVersion_gated h hl (hwelcome u.events)
    · rename_i hstate
      exact handleCompatible_gated hhandle h hl hstate
    · cases hhandle
      exact h

/-- The receive loop. -/
theorem receive_gated {incoming : Incoming} (hreceive : u.receive handler incoming = .ok u')
    (h : Gated named welcome u.client.listeners u.env)
    (hwelcome : ∀ datagram ∈ incoming.datagrams, ∀ events version,
      versionOf (recv datagram.2) = some version →
        handler.compatibility events version = .ok () → welcome datagram.1) :
    Gated named welcome u'.client.listeners u'.env := by
  obtain ⟨v, hfold, rfl⟩ := receive_eq_ok hreceive
  have hloop : Gated named welcome u.client.listeners u.env →
      Gated named welcome v.client.listeners v.env := by
    refine Vec.foldlM_rule (R := fun u v : ClientUpdate P =>
      Gated named welcome u.client.listeners u.env → Gated named welcome v.client.listeners v.env)
      (fun _ => id) (fun _ _ _ huv hvw hu => hvw (huv hu)) (fun u v datagram hmem hv hu => ?_) hfold
    exact handleDatagram_gated hv hu (hwelcome datagram hmem)
  cases incoming.error with
  | none => exact hloop h
  | some error => exact hloop h

end Receive

end ClientUpdate

/-- An update. -/
theorem Client.update_gated [Rkyv P] {c : Client P} {handler : ClientHandler P}
    {incoming : Incoming} {env : Env} {u : ClientUpdate P}
    (hupdate : c.update handler incoming env = .ok u) (h : Gated named welcome c.listeners env)
    (hwelcome : ∀ datagram ∈ incoming.datagrams, ∀ events version,
      versionOf (recv datagram.2) = some version →
        handler.compatibility events version = .ok () → welcome datagram.1) :
    Gated named welcome u.client.listeners u.env := by
  obtain ⟨v, hreceive, rfl⟩ := Client.update_eq_ok hupdate
  have hpass := ClientUpdate.updateListeners_gated
    (u := { client := c, env, events := [] }) h
  have hloop := ClientUpdate.receive_gated hreceive hpass hwelcome
  refine ⟨?_, hloop.within⟩
  rw [v.timeoutConnection_eq.1]
  exact (hloop.subset List.filter_sublist.subset).admitted

/-! ## Runs -/

namespace ClientOp

/-- The address of the server that an operation names. -/
def names : ClientOp P → List SocketAddr
  | .listen serverAddr _ | .query serverAddr _ _ => [serverAddr]
  | .connect peer _ _ => peer.toOption.toList
  | _ => []

/-- The datagrams that arrive in an operation, with the handler that is told of them. -/
def hears : ClientOp P → List (ClientHandler P × SocketAddr × Bytes)
  | .update handler incoming _ =>
      incoming.datagrams.map fun datagram => (handler, datagram.1, recv datagram.2)
  | _ => []

end ClientOp

/-- A client in a run, with the addresses of the servers it was given, what arrived and what it sent. -/
structure Greeted (P : Packets) where
  run : ClientRun P
  named : List SocketAddr
  heard : List (ClientHandler P × SocketAddr × Bytes)
  sent : List (SocketAddr × Bytes)

namespace Greeted

/-- The beginning. -/
def init (config : ClientConfig) : Greeted P where
  run := .init config
  named := []
  heard := []
  sent := []

/-- A version that the handler was compatible with arrived from an address. -/
def Welcome (heard : List (ClientHandler P × SocketAddr × Bytes)) (addr : SocketAddr) : Prop :=
  ∃ handler buf events version, (handler, addr, buf) ∈ heard ∧ versionOf buf = some version ∧
    handler.compatibility events version = .ok ()

/-- More arrived. -/
theorem Welcome.mono {heard heard' : List (ClientHandler P × SocketAddr × Bytes)} {addr : SocketAddr}
    (h : Welcome heard addr) (hsub : heard ⊆ heard') : Welcome heard' addr := by
  obtain ⟨handler, buf, events, version, hmem, hversion, hok⟩ := h
  exact ⟨handler, buf, events, version, hsub hmem, hversion, hok⟩

variable [Rkyv P] {g g' : Greeted P}

/-- One operation. -/
def step (g : Greeted P) (op : ClientOp P) : Option (Greeted P) := do
  let run ← g.run.step op
  return {
    run
    named := g.named ++ op.names
    heard := g.heard ++ op.hears
    sent := g.sent ++ (g.run.leaves op).elim [] Env.sent }

/-- The transition system of a client whose datagrams are followed. -/
def system (P : Packets) [Rkyv P] : Lts (Greeted P) (ClientOp P) where
  step := step

/-- **What one operation does**, if the servers it names are named and those it hears a good version
from are welcome. -/
theorem step_gated {r r' : ClientRun P} {op : ClientOp P} (hstep : r.step op = some r')
    (h : ∀ l ∈ r.client.listeners, l.Admitted named welcome) (hnames : ∀ a ∈ op.names, named a)
    (hhears : ∀ a, Welcome op.hears a → welcome a) :
    (∀ l ∈ r'.client.listeners, l.Admitted named welcome) ∧
      ∀ datagram ∈ (r.leaves op).elim [] Env.sent, Allowed named welcome datagram := by
  have hstart : ∀ env : Env, Gated named welcome r.client.listeners env.start := fun env =>
    ⟨h, fun datagram hmem => by cases hmem⟩
  cases op with
  | listen serverAddr env =>
    cases hstep
    obtain ⟨hadmitted, hwithin⟩ :=
      Client.listen_gated (hstart env) (hnames serverAddr List.mem_cons_self)
    exact ⟨hadmitted, hwithin⟩
  | query serverAddr query env =>
    obtain ⟨⟨result, client, env'⟩, hquery, hr⟩ := exists_of_bind_toOption hstep
    cases hr
    have hleaves : r.leaves (.query serverAddr query env) = some env' :=
      map_toOption_of_eq_ok hquery
    obtain ⟨hadmitted, hwithin⟩ :=
      Client.query_gated hquery (hstart env) (hnames serverAddr List.mem_cons_self)
    rw [hleaves]
    exact ⟨hadmitted, hwithin⟩
  | connect peer connect env =>
    obtain ⟨⟨result, client, env'⟩, hconnect, hr⟩ := exists_of_bind_toOption hstep
    cases hr
    have hleaves : r.leaves (.connect peer connect env) = some env' :=
      map_toOption_of_eq_ok hconnect
    obtain ⟨hadmitted, hwithin⟩ := Client.connect_gated hconnect (hstart env) (by
      rintro addr rfl
      exact hnames addr List.mem_cons_self)
    rw [hleaves]
    exact ⟨hadmitted, hwithin⟩
  | disconnect disconnect env =>
    obtain ⟨⟨result, client, env'⟩, hdisconnect, hr⟩ := exists_of_bind_toOption hstep
    cases hr
    have hleaves : r.leaves (.disconnect disconnect env) = some env' :=
      map_toOption_of_eq_ok hdisconnect
    obtain ⟨hadmitted, hwithin⟩ := Client.sendConnected_gated hdisconnect (hstart env)
    rw [hleaves]
    exact ⟨hadmitted, hwithin⟩
  | send packet env =>
    obtain ⟨⟨result, client, env'⟩, hsend, hr⟩ := exists_of_bind_toOption hstep
    cases hr
    have hleaves : r.leaves (.send packet env) = some env' :=
      map_toOption_of_eq_ok hsend
    obtain ⟨hadmitted, hwithin⟩ := Client.sendConnected_gated hsend (hstart env)
    rw [hleaves]
    exact ⟨hadmitted, hwithin⟩
  | forget serverAddr =>
    cases hstep
    obtain ⟨hadmitted, -⟩ := Client.forget_gated (hstart (.blocked 0)) serverAddr
    exact ⟨hadmitted, fun datagram hmem => by cases hmem⟩
  | forgetAll =>
    obtain ⟨client, hforget, hr⟩ := exists_of_bind_toOption hstep
    cases hr
    obtain ⟨hadmitted, -⟩ := Client.forgetAll_gated (hstart (.blocked 0)) hforget
    exact ⟨hadmitted, fun datagram hmem => by cases hmem⟩
  | refreshAll env =>
    cases hstep
    obtain ⟨hadmitted, hwithin⟩ := Client.refreshListeners_gated (hstart env)
    exact ⟨hadmitted, hwithin⟩
  | update handler incoming env =>
    obtain ⟨u, hupdate, rfl⟩ := ClientRun.step_update hstep
    have hleaves : r.leaves (.update handler incoming env) = some u.env :=
      map_toOption_of_eq_ok hupdate
    obtain ⟨hadmitted, hwithin⟩ := Client.update_gated hupdate (hstart env) (by
      intro datagram hmem events version hversion hok
      exact hhears _ ⟨handler, _, events, version, List.mem_map_of_mem hmem, hversion, hok⟩)
    rw [hleaves]
    exact ⟨hadmitted, hwithin⟩

/-- The listeners are admitted, and all that was ever sent is allowed. -/
structure Expected (g : Greeted P) : Prop where
  admitted : ∀ l ∈ g.run.client.listeners, l.Admitted (· ∈ g.named) (Welcome g.heard)
  sent : ∀ datagram ∈ g.sent, Allowed (· ∈ g.named) (Welcome g.heard) datagram

/-- **Step lemma.** -/
theorem Expected.step {op : ClientOp P} (h : g.Expected) (hstep : g.step op = some g') :
    g'.Expected := by
  obtain ⟨run, hrun, hg⟩ := Option.bind_eq_some_iff.mp hstep
  cases hg
  have hnamed : ∀ a ∈ g.named, a ∈ g.named ++ op.names := fun a => List.mem_append_left _
  have hwelcome : ∀ a, Welcome g.heard a → Welcome (g.heard ++ op.hears) a := fun a ha =>
    ha.mono (List.subset_append_left _ _)
  obtain ⟨hadmitted, hsent⟩ := step_gated hrun (fun l hl => (h.admitted l hl).mono hnamed hwelcome)
    (fun a => List.mem_append_right _) fun a ha => ha.mono (List.subset_append_right _ _)
  refine ⟨hadmitted, fun datagram hmem => ?_⟩
  rcases List.mem_append.mp hmem with hbefore | hnew
  · exact (h.sent datagram hbefore).mono hnamed hwelcome
  · exact hsent datagram hnew

theorem expected {config : ClientConfig} {ok : Greeted P → ClientOp P → Prop}
    (hrun : (system P).GuardedRun ok (init config) g) : g.Expected := by
  refine hrun.invariant (I := Expected) (fun _ _ _ h _ hstep => h.step hstep) ⟨?_, ?_⟩
  · intro l hl
    cases hl
  · intro datagram hmem
    cases hmem

/-- **A client talks to compatible servers only.**  In every run, every datagram that the client sends
is to the address of a server that its caller named, and it is empty, which asks for the version,
unless a version arrived from that address which the handler of the call was compatible with.  Only
such servers are reported to be compatible. -/
theorem only_to_compatible {config : ClientConfig} {ok : Greeted P → ClientOp P → Prop}
    (hrun : (system P).GuardedRun ok (init config) g) :
    (∀ datagram ∈ g.sent,
        datagram.1 ∈ g.named ∧ (datagram.2 ≠ [] → Welcome g.heard datagram.1)) ∧
      ∀ addr, g.run.client.compatibility addr = some .compatible → Welcome g.heard addr := by
  have h := expected hrun
  refine ⟨h.sent, fun addr hcompatibility => ?_⟩
  obtain ⟨⟨index, l⟩, hposition, hl⟩ := Option.map_eq_some_iff.mp hcompatibility
  obtain ⟨hget, rfl⟩ := Client.position_eq_some hposition
  refine (h.admitted l (List.mem_of_getElem? hget)).welcome ?_
  unfold ServerListener.compatibility at hl
  unfold ServerState.isCompatible
  split at hl <;> cases hl
  rename_i hstate
  rw [hstate]

/-- A server is asked for its version, answers and is sent a query. -/
theorem only_to_compatible_query :
    ∃ g, (system DefaultPackets).GuardedRun (fun _ _ => True) (init .default) g ∧
      ∃ datagram ∈ g.sent, datagram.2 ≠ [] ∧ Welcome g.heard datagram.1 := by
  obtain ⟨g, hrun, hg⟩ := Lts.exists_guardedRun (system DefaultPackets) (fun _ _ => True)
    (fun _ _ => true) (init .default)
    [.listen 5 (.accepting 0),
      .update (.default _) { datagrams := [(5, [PacketKind.version.toByte])] } (.accepting 1),
      .query 5 () (.accepting 2)]
    (fun g => g.sent.any fun datagram => decide (datagram.2 ≠ []))
    (fun _ _ _ _ => trivial) (by decide +kernel)
  obtain ⟨datagram, hmem, hne⟩ := List.any_eq_true.mp hg
  have hdatagram := of_decide_eq_true hne
  exact ⟨g, hrun, datagram, hmem, hdatagram, ((only_to_compatible hrun).1 datagram hmem).2 hdatagram⟩

end Greeted

end Ultinet
