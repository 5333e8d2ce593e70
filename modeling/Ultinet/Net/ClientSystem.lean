import Ultinet.Lib.GuardedRun
import Ultinet.Net.Client

/-!
# Runs of a client

The operations of a client as a transition system, with the answers of the environment in the labels:
the clock, the socket, the address a connect call resolves to, the datagrams that arrive and the
decisions of the handler.

The connection is identified by position 0 of the listeners only.  So what an operation can do is
said in terms of the listener at position 0: it *evolves*, that is it stays the listener of the same
server, it stays compatible and nothing it is sending gets lost (`Evolves`), unless the operation is
one of the few that have lemmas of their own.
-/

namespace Ultinet

variable {P : Packets}

/-! ## What can happen to a listener -/

/-- Whether a packet with this id is being sent to the server. -/
def ServerListener.outstanding (l : ServerListener P) (id : PacketId) : Bool :=
  match l.state with
  | .compatible buffers _ => (buffers.sendBuffer.packets.get? id).isSome
  | _ => false

/-- A listener stays the one of its server, stays compatible and loses nothing it is sending. -/
structure ServerListener.Evolves (l l' : ServerListener P) : Prop where
  serverAddr : l'.serverAddr = l.serverAddr
  isCompatible : l.state.isCompatible = true → l'.state.isCompatible = true
  outstanding : ∀ id, l.outstanding id = true → l'.outstanding id = true

namespace ServerListener

theorem Evolves.refl (l : ServerListener P) : l.Evolves l :=
  ⟨rfl, id, fun _ => id⟩

theorem Evolves.trans {l l' l'' : ServerListener P} (h : l.Evolves l') (h' : l'.Evolves l'') :
    l.Evolves l'' :=
  ⟨h'.serverAddr.trans h.serverAddr, fun hl => h'.isCompatible (h.isCompatible hl),
    fun id hl => h'.outstanding id (h.outstanding id hl)⟩

/-- A listener that is not compatible may become anything. -/
theorem Evolves.of_not_isCompatible {l : ServerListener P} (h : l.state.isCompatible = false)
    (state : ServerState P) : l.Evolves { l with state } := by
  refine ⟨rfl, fun hl => ?_, fun id hid => ?_⟩
  · rw [h] at hl
    cases hl
  · unfold ServerListener.outstanding at hid
    unfold ServerState.isCompatible at h
    split at h
    · cases h
    · split at hid
      · simp_all
      · cases hid

/-- The buffers of a listener may change if nothing that is being sent gets lost. -/
theorem Evolves.of_buffers {l : ServerListener P} {buffers buffers' : PacketBuffers}
    {lastInteraction : ℕ} (hl : l.state = .compatible buffers lastInteraction)
    (h : ∀ id, (buffers.sendBuffer.packets.get? id).isSome = true →
      (buffers'.sendBuffer.packets.get? id).isSome = true) (lastInteraction' : ℕ) :
    l.Evolves { l with state := .compatible buffers' lastInteraction' } := by
  refine ⟨rfl, fun _ => rfl, fun id hid => ?_⟩
  unfold ServerListener.outstanding at hid ⊢
  rw [hl] at hid
  exact h id hid

end ServerListener

/-! ## The listener at position 0 -/

/-- The listener at position 0 evolves. -/
def FrontEvolves (ls ls' : List (ServerListener P)) : Prop :=
  ∀ l, ls.head? = some l → ∃ l', ls'.head? = some l' ∧ l.Evolves l'

namespace FrontEvolves

theorem refl (ls : List (ServerListener P)) : FrontEvolves ls ls :=
  fun l hl => ⟨l, hl, .refl l⟩

theorem trans {ls ls' ls'' : List (ServerListener P)} (h : FrontEvolves ls ls')
    (h' : FrontEvolves ls' ls'') : FrontEvolves ls ls'' := by
  intro l hl
  obtain ⟨l', hl', hevolves⟩ := h l hl
  obtain ⟨l'', hl'', hevolves'⟩ := h' l' hl'
  exact ⟨l'', hl'', hevolves.trans hevolves'⟩

/-- A listener is added at the end. -/
theorem append (ls : List (ServerListener P)) (l : ServerListener P) :
    FrontEvolves ls (ls ++ [l]) := by
  intro l' hl'
  exact ⟨l', by rw [List.head?_append, hl']; rfl, .refl l'⟩

/-- Some listener evolves. -/
theorem set {ls : List (ServerListener P)} {index : ℕ} {l l' : ServerListener P}
    (hget : ls[index]? = some l) (h : l.Evolves l') : FrontEvolves ls (ls.set index l') := by
  intro head hhead
  cases ls with
  | nil => cases hhead
  | cons first rest =>
    cases hhead
    cases index with
    | zero =>
      cases hget
      exact ⟨l', rfl, h⟩
    | succ index => exact ⟨head, rfl, .refl head⟩

end FrontEvolves

/-- The state of the connection stays the same, and if there is a connection then the listener at
position 0 evolves. -/
structure Client.Steady (c c' : Client P) : Prop where
  state : c'.state = c.state
  front : c.state ≠ .disconnected → FrontEvolves c.listeners c'.listeners

namespace Client

theorem Steady.refl (c : Client P) : c.Steady c :=
  ⟨rfl, fun _ => .refl c.listeners⟩

theorem Steady.trans {c c' c'' : Client P} (h : c.Steady c') (h' : c'.Steady c'') :
    c.Steady c'' :=
  ⟨h'.state.trans h.state, fun hc => (h.front hc).trans (h'.front (by rwa [h.state]))⟩

/-! ## What the operations do -/

/-- A listener that was found is at its position, and is the one of the server. -/
theorem position_eq_some {c : Client P} {serverAddr : SocketAddr} {index : ℕ}
    {listener : ServerListener P} (h : c.position serverAddr = some (index, listener)) :
    c.listeners[index]? = some listener ∧ listener.serverAddr = serverAddr := by
  obtain ⟨hget, haddr⟩ := Vec.position_eq_some h
  exact ⟨hget, by simpa using haddr⟩

/-- Everything `getOrAddListener` can do. -/
theorem getOrAddListener_cases (c : Client P) (serverAddr : SocketAddr) (env : Env) :
    (∃ found, c.position serverAddr = some found ∧
        c.getOrAddListener serverAddr env = (.ok found, c, env)) ∨
      (c.position serverAddr = none ∧ ∃ lastVersionQuery env',
        c.getOrAddListener serverAddr env =
          (.ok (c.listeners.length, ⟨serverAddr, .pendingVersion lastVersionQuery⟩),
            { c with listeners :=
                c.listeners ++ [⟨serverAddr, .pendingVersion lastVersionQuery⟩] }, env')) ∨
      (c.position serverAddr = none ∧ ∃ error env',
        c.getOrAddListener serverAddr env = (.error error, c, env')) := by
  unfold getOrAddListener
  cases hposition : c.position serverAddr with
  | some found => exact Or.inl ⟨found, rfl, rfl⟩
  | none =>
    refine Or.inr ?_
    unfold ServerListener.new ServerListener.pendingVersionQuery
    rcases hquery : sendVersionQuery serverAddr env with ⟨result, env'⟩
    cases result with
    | error error => exact Or.inr ⟨rfl, error, env', rfl⟩
    | ok sent => exact Or.inl ⟨rfl, _, env', rfl⟩

theorem getOrAddListener_steady (c : Client P) (serverAddr : SocketAddr) (env : Env) :
    c.Steady (c.getOrAddListener serverAddr env).2.1 := by
  rcases c.getOrAddListener_cases serverAddr env with
    ⟨found, -, heq⟩ | ⟨-, lastVersionQuery, env', heq⟩ | ⟨-, error, env', heq⟩
  · rw [heq]
    exact .refl c
  · rw [heq]
    exact ⟨rfl, fun _ => .append _ _⟩
  · rw [heq]
    exact .refl c

theorem listen_steady (c : Client P) (serverAddr : SocketAddr) (env : Env) :
    c.Steady (c.listen serverAddr env).2.1 := by
  have h := c.getOrAddListener_steady serverAddr env
  unfold listen
  split <;> rename_i heq <;> rw [heq] at h <;> exact h

/-- While there is a connection, forgetting a server leaves the listener at position 0 there. -/
theorem forget_head {c : Client P} (hstate : c.state ≠ .disconnected) {l : ServerListener P}
    (hl : c.listeners.head? = some l) (serverAddr : SocketAddr) :
    (c.forget serverAddr).2.listeners.head? = some l := by
  unfold forget
  cases hposition : c.position serverAddr with
  | none => exact hl
  | some found =>
    obtain ⟨index, listener⟩ := found
    obtain ⟨hget, -⟩ := position_eq_some hposition
    dsimp only
    split_ifs with hfirst
    · exact hl
    · -- another listener is removed
      obtain ⟨index, rfl⟩ := Nat.exists_eq_succ_of_ne_zero fun h => hfirst ⟨h, hstate⟩
      cases hlisteners : c.listeners with
      | nil =>
        rw [hlisteners] at hl
        cases hl
      | cons first rest =>
        rw [hlisteners] at hget hl
        cases hl
        obtain ⟨hlt, -⟩ := List.getElem?_eq_some_iff.mp hget
        obtain ⟨rest', heq, -⟩ := Vec.swapRemove_cons_succ l rest
          (Nat.lt_of_succ_lt_succ (by simpa using hlt))
        simp only [heq, List.head?_cons]

theorem forget_state (c : Client P) (serverAddr : SocketAddr) :
    (c.forget serverAddr).2.state = c.state := by
  unfold forget
  split
  · rfl
  · split_ifs <;> rfl

theorem forget_steady (c : Client P) (serverAddr : SocketAddr) :
    c.Steady (c.forget serverAddr).2 :=
  ⟨c.forget_state serverAddr, fun hstate l hl => ⟨l, forget_head hstate hl serverAddr, .refl l⟩⟩

theorem forgetAll_steady {c c' : Client P} (h : c.forgetAll = .ok c') : c.Steady c' := by
  unfold forgetAll at h
  split_ifs at h with hstate
  · cases h
    exact ⟨rfl, fun hne => absurd hstate hne⟩
  · split at h
    · cases h
    · rename_i first rest hlisteners
      cases h
      refine ⟨rfl, fun _ l hl => ⟨l, ?_, .refl l⟩⟩
      rw [hlisteners] at hl
      exact hl

/-! ### Sending a packet -/

section Sending

variable [Rkyv P]

/-- A packet is given to the buffers of a compatible server, whose listener is at an index. -/
structure Sends (c : Client P) (packet : ClientConnectionPacket P) (env : Env) (index : ℕ)
    (l : ServerListener P) (sent : IoResult PacketId) (l' : ServerListener P) (env' : Env) :
    Prop where
  get : c.listeners[index]? = some l
  send : ∃ buffers lastInteraction buffers', l.state = .compatible buffers lastInteraction ∧
    buffers.send (Rkyv.serializeClient packet)
      c.config.connection.backgroundSerializationThreshold l.serverAddr env =
        .ok (sent, buffers', env') ∧
    l' = { l with state := .compatible buffers' lastInteraction }

namespace Sends

variable {c : Client P} {packet : ClientConnectionPacket P} {env env' : Env} {index : ℕ}
  {l l' : ServerListener P} {sent : IoResult PacketId}

theorem evolves (h : c.Sends packet env index l sent l' env') : l.Evolves l' := by
  obtain ⟨buffers, lastInteraction, buffers', hstate, hsend, rfl⟩ := h.send
  exact .of_buffers hstate (PacketBuffers.send_outstanding hsend).1 lastInteraction

theorem outstanding {packetId : PacketId}
    (h : c.Sends packet env index l (.ok packetId) l' env') : l'.outstanding packetId = true := by
  obtain ⟨buffers, lastInteraction, buffers', -, hsend, rfl⟩ := h.send
  exact (PacketBuffers.send_outstanding hsend).2 packetId rfl

theorem mem (h : c.Sends packet env index l sent l' env') : l ∈ c.listeners :=
  List.mem_of_getElem? h.get

end Sends

/-- Everything a query can do. -/
inductive QueryOutcome (c : Client P) (serverAddr : SocketAddr) (query : P.Query) (env : Env) :
    Except QueryError PacketId → Client P → Env → Prop
  | refused (error : QueryError) :
      QueryOutcome c serverAddr query env (.error error) (c.getOrAddListener serverAddr env).2.1
        (c.getOrAddListener serverAddr env).2.2
  | sends {index : ℕ} {l : ServerListener P} {sent : IoResult PacketId} {l' : ServerListener P}
      {env' : Env} (hposition : c.position serverAddr = some (index, l))
      (hsends : c.Sends (.query query) env index l sent l' env') :
      QueryOutcome c serverAddr query env (sent.mapError .io) (c.setListener index l') env'

theorem query_outcome {c c' : Client P} {serverAddr : SocketAddr} {query : P.Query} {env env' : Env}
    {result : Except QueryError PacketId}
    (h : c.query serverAddr query env = .ok (result, c', env')) :
    c.QueryOutcome serverAddr query env result c' env' := by
  have hrefused (error : QueryError) : c.QueryOutcome serverAddr query env (.error error)
      (c.getOrAddListener serverAddr env).2.1 (c.getOrAddListener serverAddr env).2.2 :=
    .refused error
  unfold Client.query at h
  rcases c.getOrAddListener_cases serverAddr env with
    ⟨⟨index, listener⟩, hposition, heq⟩ | ⟨-, lastVersionQuery, env'', heq⟩ | ⟨-, error, env'', heq⟩
  · obtain ⟨hget, haddr⟩ := position_eq_some hposition
    rw [heq] at h hrefused
    dsimp only at h
    split at h
    · cases h
      exact hrefused _
    · rename_i buffers lastInteraction hstate
      cases hsend : buffers.send (Rkyv.serializeClient (.query query))
          c.config.connection.backgroundSerializationThreshold serverAddr env with
      | error abort => simp [hsend, bind, Except.bind] at h
      | ok sent =>
        obtain ⟨sent, buffers', env''⟩ := sent
        simp only [hsend, bind, Except.bind, pure, Except.pure] at h
        cases h
        exact .sends hposition ⟨hget, buffers, lastInteraction, buffers', hstate, haddr ▸ hsend, rfl⟩
    · cases h
      exact hrefused _
  · rw [heq] at h hrefused
    cases h
    exact hrefused _
  · rw [heq] at h hrefused
    cases h
    exact hrefused _

/-- Everything connecting can do. -/
inductive ConnectOutcome (c : Client P) (connect : P.Connect) (env : Env) :
    IoResult SocketAddr → Except ConnectError PacketId → Client P → Env → Prop
  | notDisconnected (peer : IoResult SocketAddr) (hstate : c.state ≠ .disconnected) :
      ConnectOutcome c connect env peer (.error .notDisconnected) c env
  | noPeer (hstate : c.state = .disconnected) (error : IoError) :
      ConnectOutcome c connect env (.error error) (.error (.io error)) c env
  | refused (hstate : c.state = .disconnected) (serverAddr : SocketAddr) {error : ConnectError}
      (herror : error ≠ .notDisconnected) :
      ConnectOutcome c connect env (.ok serverAddr) (.error error)
        (c.getOrAddListener serverAddr env).2.1 (c.getOrAddListener serverAddr env).2.2
  | failed (hstate : c.state = .disconnected) {serverAddr : SocketAddr} {index : ℕ}
      {l l' : ServerListener P} {error : IoError} {env' : Env}
      (hposition : c.position serverAddr = some (index, l))
      (hsends : c.Sends (.connect connect) env index l (.error error) l' env') :
      ConnectOutcome c connect env (.ok serverAddr) (.error (.io error)) (c.setListener index l') env'
  | sends (hstate : c.state = .disconnected) {serverAddr : SocketAddr} {index : ℕ}
      {l l' : ServerListener P} {packetId : PacketId} {env' : Env}
      (hposition : c.position serverAddr = some (index, l))
      (hsends : c.Sends (.connect connect) env index l (.ok packetId) l' env') :
      ConnectOutcome c connect env (.ok serverAddr) (.ok packetId)
        { c.setListener index l' with state := .connecting } env'

theorem connect_outcome {c c' : Client P} {peer : IoResult SocketAddr} {connect : P.Connect}
    {env env' : Env} {result : Except ConnectError PacketId}
    (h : c.connect peer connect env = .ok (result, c', env')) :
    c.ConnectOutcome connect env peer result c' env' := by
  unfold Client.connect at h
  split_ifs at h with hstate
  · split at h
    · cases h
      exact .noPeer hstate _
    · rename_i serverAddr
      have hrefused {error : ConnectError} (herror : error ≠ .notDisconnected) :
          c.ConnectOutcome connect env (.ok serverAddr) (.error error)
            (c.getOrAddListener serverAddr env).2.1 (c.getOrAddListener serverAddr env).2.2 :=
        .refused hstate serverAddr herror
      rcases c.getOrAddListener_cases serverAddr env with
        ⟨⟨index, listener⟩, hposition, heq⟩ | ⟨-, lastVersionQuery, env'', heq⟩ |
          ⟨-, error, env'', heq⟩
      · obtain ⟨hget, haddr⟩ := position_eq_some hposition
        rw [heq] at h hrefused
        dsimp only at h
        split at h
        · cases h
          exact hrefused (by simp)
        · rename_i buffers lastInteraction hcompatible
          cases hsend : buffers.send (Rkyv.serializeClient (.connect connect))
              c.config.connection.backgroundSerializationThreshold serverAddr env with
          | error abort => simp [hsend, bind, Except.bind] at h
          | ok sent =>
            obtain ⟨sent, buffers', env''⟩ := sent
            have hsends : c.Sends (.connect connect) env index listener sent
                { listener with state := .compatible buffers' lastInteraction } env'' :=
              ⟨hget, buffers, lastInteraction, buffers', hcompatible, haddr ▸ hsend, rfl⟩
            simp only [hsend, bind, Except.bind, pure, Except.pure] at h
            cases sent with
            | error error =>
              cases h
              exact .failed hstate hposition hsends
            | ok packetId =>
              cases h
              exact .sends hstate hposition hsends
        · cases h
          exact hrefused (by simp)
      · rw [heq] at h hrefused
        cases h
        exact hrefused (by simp)
      · rw [heq] at h hrefused
        cases h
        exact hrefused (by simp)
  · cases h
    exact .notDisconnected peer hstate

/-- Everything sending to the connected server can do. -/
inductive SendOutcome (c : Client P) (packet : ClientConnectionPacket P) (state : ClientState)
    (env : Env) : Except SendError PacketId → Client P → Env → Prop
  | notConnected (hstate : c.state ≠ .connected) :
      SendOutcome c packet state env (.error .notConnected) c env
  | failed (hstate : c.state = .connected) {l l' : ServerListener P} {error : IoError} {env' : Env}
      (hsends : c.Sends packet env 0 l (.error error) l' env') :
      SendOutcome c packet state env (.error (.io error))
        { c with
          state := .disconnected
          listeners := Vec.swapRemove (c.listeners.set 0 l') 0 } env'
  | sends (hstate : c.state = .connected) {l l' : ServerListener P} {packetId : PacketId}
      {env' : Env} (hsends : c.Sends packet env 0 l (.ok packetId) l' env') :
      SendOutcome c packet state env (.ok packetId) { c.setListener 0 l' with state } env'

theorem sendConnected_outcome {c c' : Client P} {packet : ClientConnectionPacket P}
    {state : ClientState} {env env' : Env} {result : Except SendError PacketId}
    (h : c.sendConnected packet state env = .ok (result, c', env')) :
    c.SendOutcome packet state env result c' env' := by
  unfold sendConnected at h
  split_ifs at h with hstate
  · split at h
    · cases h
    · rename_i listener rest hlisteners
      have hget : c.listeners[0]? = some listener := by
        rw [hlisteners]
        rfl
      split at h
      · rename_i buffers lastInteraction hcompatible
        cases hsend : buffers.send (Rkyv.serializeClient packet)
            c.config.connection.backgroundSerializationThreshold listener.serverAddr env with
        | error abort => simp [hsend, bind, Except.bind] at h
        | ok sent =>
          obtain ⟨sent, buffers', env''⟩ := sent
          have hsends : c.Sends packet env 0 listener sent
              { listener with state := .compatible buffers' lastInteraction } env'' :=
            ⟨hget, buffers, lastInteraction, buffers', hcompatible, hsend, rfl⟩
          simp only [hsend, bind, Except.bind, pure, Except.pure] at h
          cases sent with
          | error error =>
            cases h
            exact .failed hstate hsends
          | ok packetId =>
            cases h
            exact .sends hstate hsends
      · cases h
      · cases h
  · cases h
    exact .notConnected hstate

theorem query_steady {c c' : Client P} {serverAddr : SocketAddr} {query : P.Query} {env env' : Env}
    {result : Except QueryError PacketId}
    (h : c.query serverAddr query env = .ok (result, c', env')) : c.Steady c' := by
  cases query_outcome h with
  | refused error => exact c.getOrAddListener_steady serverAddr env
  | sends hposition hsends => exact ⟨rfl, fun _ => .set hsends.get hsends.evolves⟩

/-- What connecting can do: it fails and the client stays disconnected or does not change, or the
packet is sent to the first listener of the server, which is compatible. -/
theorem connect_cases {c c' : Client P} {peer : IoResult SocketAddr} {connect : P.Connect}
    {env env' : Env} {result : Except ConnectError PacketId}
    (h : c.connect peer connect env = .ok (result, c', env')) :
    (∃ error, result = .error error ∧ c'.state = c.state ∧ (c.state ≠ .disconnected → c' = c) ∧
        (error = .notDisconnected → c.state ≠ .disconnected)) ∨
      ∃ packetId serverAddr index l l', result = .ok packetId ∧ peer = .ok serverAddr ∧
        c.state = .disconnected ∧ c.position serverAddr = some (index, l) ∧
        c.Sends (.connect connect) env index l (.ok packetId) l' env' ∧
        c' = { c.setListener index l' with state := .connecting } := by
  cases connect_outcome h with
  | notDisconnected peer hstate => exact Or.inl ⟨_, rfl, rfl, fun _ => rfl, fun _ => hstate⟩
  | noPeer hstate error => exact Or.inl ⟨_, rfl, rfl, fun _ => rfl, by simp⟩
  | refused hstate serverAddr herror =>
    exact Or.inl ⟨_, rfl, (c.getOrAddListener_steady serverAddr env).state,
      fun hne => absurd hstate hne, fun heq => absurd heq herror⟩
  | failed hstate hposition hsends =>
    exact Or.inl ⟨_, rfl, rfl, fun hne => absurd hstate hne, by simp⟩
  | sends hstate hposition hsends =>
    exact Or.inr ⟨_, _, _, _, _, rfl, rfl, hstate, hposition, hsends, rfl⟩

/-- What sending to the connected server can do: there is no such server and the client does not
change, or the packet cannot be sent and the client is disconnected, or the packet is being sent. -/
theorem sendConnected_cases {c c' : Client P} {packet : ClientConnectionPacket P}
    {state : ClientState} {env env' : Env} {result : Except SendError PacketId}
    (h : c.sendConnected packet state env = .ok (result, c', env')) :
    (c.state ≠ .connected ∧ result = .error .notConnected ∧ c' = c) ∨
      (c.state = .connected ∧ (∃ error, result = .error (.io error)) ∧
        c'.state = .disconnected) ∨
      (c.state = .connected ∧ c'.state = state ∧ FrontEvolves c.listeners c'.listeners ∧
        ∃ packetId l, result = .ok packetId ∧ c'.listeners.head? = some l ∧
          l.outstanding packetId = true) := by
  cases sendConnected_outcome h with
  | notConnected hstate => exact Or.inl ⟨hstate, rfl, rfl⟩
  | failed hstate hsends => exact Or.inr (Or.inl ⟨hstate, ⟨_, rfl⟩, rfl⟩)
  | sends hstate hsends =>
    refine Or.inr (Or.inr ⟨hstate, rfl, .set hsends.get hsends.evolves, _, _, rfl, ?_,
      hsends.outstanding⟩)
    have hlt := (List.getElem?_eq_some_iff.mp hsends.get).1
    rw [setListener_listeners, List.head?_eq_getElem?, List.getElem?_set_self hlt]

end Sending

/-! ### Refreshing -/

/-- Refreshing keeps the addresses. -/
theorem refreshListeners_serverAddr (ls : List (ServerListener P)) (env : Env) :
    (refreshListeners ls env).2.1.map ServerListener.serverAddr =
      ls.map ServerListener.serverAddr := by
  induction ls generalizing env with
  | nil => rfl
  | cons l ls ih =>
    have haddr : (l.refresh env).2.1.serverAddr = l.serverAddr := by
      unfold ServerListener.refresh
      split <;> rfl
    unfold refreshListeners
    rcases hrefresh : l.refresh env with ⟨result, l', env'⟩
    rw [hrefresh] at haddr
    have haddr' : l'.serverAddr = l.serverAddr := haddr
    cases result with
    | error error => simp [haddr']
    | ok _ => simp [haddr', ih env']

/-- If the version query to the first server fails then nothing is refreshed. -/
theorem refreshListeners_of_failed {l : ServerListener P} (ls : List (ServerListener P)) (env : Env)
    {error : IoError} (h : env.answer env.attempts (l.serverAddr, []) = .failed error) :
    (refreshListeners (l :: ls) env).2.1 = l :: ls := by
  simp [refreshListeners, ServerListener.refresh, ServerListener.pendingVersionQuery,
    sendVersionQuery, Env.send, h]

end Client

/-! ## What a call of `update` does -/

namespace ServerListener

/-- A version query to the server is due. -/
def VersionQueryDue (l : ServerListener P) (config : ClientConfig) (now : ℕ) : Prop :=
  ∃ it, l.state = .pendingVersion (some it) ∧ config.connection.resendDelay ≤ elapsed now it

/-- What updating a listener can do: it stays one of the same server, or it is dropped because a
version query fails or, ending the connection, because its packets cannot be sent. -/
theorem update_cases (l : ServerListener P) (state : Option ClientState) (config : ClientConfig)
    (env : Env) :
    (∃ l' env', l.update state config env = (some l', state, none, env') ∧
        l'.serverAddr = l.serverAddr ∧ (l.state.isCompatible = true → l'.state.isCompatible = true)) ∨
      (∃ error env', l.update state config env = (none, state, some error, env') ∧
        l.VersionQueryDue config env.now ∧
        env.answer env.attempts (l.serverAddr, []) = .failed error) ∨
      ∃ error env', l.update state config env =
        (none, state.map fun _ => .disconnected, some error, env') ∧
        l.state.isCompatible = true := by
  unfold update
  cases hl : l.state with
  | pendingVersion lastVersionQuery =>
    have hpending : ∀ {Q : Prop},
        (ServerState.pendingVersion (P := P) lastVersionQuery).isCompatible = true → Q := by
      intro Q h
      cases h
    dsimp only
    split_ifs with hdue
    · rcases env.send_cases l.serverAddr [] with ⟨hsend, -⟩ | ⟨hsend, -⟩ | ⟨error, hsend, hanswer⟩
      · exact Or.inl ⟨{ l with state := .pendingVersion (some env.now) },
          env.record [(l.serverAddr, [])] [(l.serverAddr, [])],
          by simp [sendVersionQuery, hsend], rfl, hpending⟩
      · exact Or.inl ⟨{ l with state := .pendingVersion lastVersionQuery },
          env.record [(l.serverAddr, [])] [], by simp [sendVersionQuery, hsend], rfl, hpending⟩
      · obtain ⟨it, rfl, hit⟩ := (Option.any_eq_true _ _).mp hdue
        exact Or.inr (Or.inl ⟨error, env.record [(l.serverAddr, [])] [],
          by simp only [sendVersionQuery, hsend], ⟨it, hl, by simpa using hit⟩, hanswer⟩)
    · exact Or.inl ⟨l, env, rfl, rfl, by simp [hl]⟩
  | compatible buffers lastInteraction =>
    dsimp only
    split
    · exact Or.inr (Or.inr ⟨_, _, rfl, rfl⟩)
    · exact Or.inl ⟨_, _, rfl, rfl, fun _ => rfl⟩
  | incompatible error => exact Or.inl ⟨l, env, rfl, rfl, by simp [hl]⟩

end ServerListener

namespace ClientUpdate

/-- The pass over the other listeners leaves the state of the connection alone. -/
theorem visitListener_state (config : ClientConfig) {pass : Pass P} (hpass : pass.connected = false)
    (l : ServerListener P) :
    (visitListener config pass l).1.connected = false ∧
      (visitListener config pass l).1.state = pass.state := by
  refine ⟨rfl, ?_⟩
  simp only [visitListener, hpass, Bool.false_eq_true, if_false]
  rcases l.update_cases none config pass.env with
    ⟨l', env', heq, -⟩ | ⟨error, env', heq, -⟩ | ⟨error, env', heq, -⟩ <;> rw [heq] <;> rfl

/-- The same for several listeners. -/
theorem retainListeners_state (config : ClientConfig) {pass : Pass P}
    (hpass : pass.connected = false) (ls : List (ServerListener P)) :
    (Vec.retainMut (visitListener config) pass ls).1.state = pass.state := by
  suffices h : (Vec.retainMut (visitListener config) pass ls).1.connected = false ∧
      (Vec.retainMut (visitListener config) pass ls).1.state = pass.state from h.2
  refine Vec.retainMut_state
    (I := fun pass' : Pass P => pass'.connected = false ∧ pass'.state = pass.state)
    (fun pass' l _ hpass' => ?_) ⟨hpass, rfl⟩
  obtain ⟨hconnected, hsame⟩ := visitListener_state config hpass'.1 l
  exact ⟨hconnected, hsame.trans hpass'.2⟩

/-- The pass over the listeners is an update of the one at position 0, which may end the connection,
and a pass over the others, which may not. -/
theorem updateListeners_cons {u : ClientUpdate P} {l : ServerListener P}
    {ls : List (ServerListener P)} (hlisteners : u.client.listeners = l :: ls)
    (hstate : u.client.state ≠ .disconnected) {kept : Option (ServerListener P)}
    {state : Option ClientState} {error : Option IoError} {env : Env}
    (hupdate : l.update (some u.client.state) u.client.config u.env = (kept, state, error, env)) :
    u.updateListeners.client.state = state.getD u.client.state ∧
      ∃ rest, u.updateListeners.client.listeners = kept.toList ++ rest := by
  have hfirst : visitListener u.client.config
      { connected := decide (u.client.state ≠ .disconnected), state := u.client.state, env := u.env,
        events := u.events } l =
      ({ connected := false
         state := state.getD u.client.state
         env
         events := u.events ++
          error.toList.map fun error => .error (.send l.serverAddr error) }, kept) := by
    simp only [visitListener, hstate, decide_true, if_true, hupdate, ne_eq, not_false_eq_true]
  unfold updateListeners
  rw [hlisteners, Vec.retainMut_cons, hfirst]
  exact ⟨retainListeners_state _ rfl ls, _, rfl⟩

/-- A client that is disconnected stays disconnected in the pass. -/
theorem updateListeners_of_disconnected {u : ClientUpdate P}
    (hstate : u.client.state = .disconnected) :
    u.updateListeners.client.state = .disconnected := by
  unfold updateListeners
  refine (retainListeners_state u.client.config ?_ u.client.listeners).trans hstate
  exact decide_eq_false (not_not.mpr hstate)

/-- The pass over the listeners may only end the connection. -/
theorem updateListeners_state (u : ClientUpdate P) :
    u.updateListeners.client.state = u.client.state ∨
      u.updateListeners.client.state = .disconnected := by
  by_cases hstate : u.client.state = .disconnected
  · exact Or.inr (updateListeners_of_disconnected hstate)
  cases hlisteners : u.client.listeners with
  | nil =>
    unfold updateListeners
    rw [hlisteners]
    exact Or.inl rfl
  | cons l ls =>
    rcases l.update_cases (some u.client.state) u.client.config u.env with
      ⟨l', env', hupdate, -⟩ | ⟨error, env', hupdate, -⟩ | ⟨error, env', hupdate, -⟩
    · exact Or.inl (updateListeners_cons hlisteners hstate hupdate).1
    · exact Or.inl (updateListeners_cons hlisteners hstate hupdate).1
    · exact Or.inr (updateListeners_cons hlisteners hstate hupdate).1

/-! ### A datagram -/

/-- What a packet or a datagram can do to the state of the connection. -/
def StateStep (u u' : ClientUpdate P) : Prop :=
  u'.client.state = u.client.state ∨ u'.client.state = .disconnected ∨
    (u.client.state = .connecting ∧ u'.client.state = .connected ∧
      ∃ l, u'.client.listeners.head? = some l ∧ l.state.isCompatible = true)

/-- A packet changes the state only if it comes from the listener of the connection, and it does not
change the listeners. -/
theorem handlePacket_cases (u : ClientUpdate P) (serverAddr : SocketAddr)
    (isConnectionListener : Bool) (packet : ServerConnectionPacket P) :
    (u.handlePacket serverAddr isConnectionListener packet).client.listeners = u.client.listeners ∧
      ((u.handlePacket serverAddr isConnectionListener packet).client.state = u.client.state ∨
        isConnectionListener = true ∧
          ((u.handlePacket serverAddr isConnectionListener packet).client.state = .disconnected ∨
            u.client.state = .connecting ∧
              (u.handlePacket serverAddr isConnectionListener packet).client.state =
                .connected)) := by
  have hin : ∀ state event next, (next = .disconnected ∨ next = state ∨
      state = .connecting ∧ next = .connected) →
      (u.handleInState serverAddr isConnectionListener state event next).client.listeners =
          u.client.listeners ∧
        ((u.handleInState serverAddr isConnectionListener state event next).client.state =
            u.client.state ∨
          isConnectionListener = true ∧
            ((u.handleInState serverAddr isConnectionListener state event next).client.state =
                .disconnected ∨
              u.client.state = .connecting ∧
                (u.handleInState serverAddr isConnectionListener state event next).client.state =
                  .connected)) := by
    intro state event next hnext
    unfold handleInState
    split_ifs with hcond
    · obtain ⟨hconnection, hstate⟩ := hcond
      refine ⟨rfl, ?_⟩
      rcases hnext with rfl | rfl | ⟨rfl, rfl⟩
      · exact Or.inr ⟨hconnection, Or.inl rfl⟩
      · exact Or.inl hstate.symm
      · exact Or.inr ⟨hconnection, Or.inr ⟨hstate, rfl⟩⟩
    · exact ⟨rfl, Or.inl rfl⟩
  cases packet with
  | status status => exact ⟨rfl, Or.inl rfl⟩
  | accept accept => exact hin _ _ _ (Or.inr (Or.inr ⟨rfl, rfl⟩))
  | reject reject => exact hin _ _ _ (Or.inl rfl)
  | kick kick => exact hin _ _ _ (Or.inl rfl)
  | user packet => exact hin _ _ _ (Or.inr (Or.inl rfl))

/-- A ping changes the state only if it cannot be sent back. -/
theorem handlePing_cases (u : ClientUpdate P) (serverAddr : SocketAddr) (buf : Bytes) :
    (u.handlePing serverAddr buf).client.listeners = u.client.listeners ∧
      ((u.handlePing serverAddr buf).client.state = u.client.state ∨
        (u.handlePing serverAddr buf).client.state = .disconnected) := by
  unfold handlePing
  dsimp only
  split
  · exact ⟨rfl, Or.inl rfl⟩
  · exact ⟨rfl, Or.inr rfl⟩

/-- A datagram from a server that was asked for its version only decides about its listener. -/
theorem handleVersion_cases (handler : ClientHandler P) {u : ClientUpdate P} {index : ℕ}
    {listener : ServerListener P} (buf : Bytes) (hstate : listener.state.isCompatible = false)
    (hget : u.client.listeners[index]? = some listener) :
    (u.handleVersion handler index listener buf).client.state = u.client.state ∧
      ∃ listener', listener.Evolves listener' ∧
        (u.handleVersion handler index listener buf).client.listeners =
          u.client.listeners.set index listener' := by
  have hsame : u.client.listeners = u.client.listeners.set index listener := by
    obtain ⟨hlt, heq⟩ := List.getElem?_eq_some_iff.mp hget
    rw [← heq, List.set_getElem_self]
  unfold handleVersion
  split
  · exact ⟨rfl, listener, .refl listener, hsame⟩
  · split_ifs
    · split
      · exact ⟨rfl, listener, .refl listener, hsame⟩
      · dsimp only
        split
        · exact ⟨rfl, _, .of_not_isCompatible hstate _, rfl⟩
        · exact ⟨rfl, _, .of_not_isCompatible hstate _, rfl⟩
    · exact ⟨rfl, listener, .refl listener, hsame⟩

section Receive

variable [Rkyv P]

/-- **Everything the result of the buffers can lead to**, if validation returns.  The handler is told
what became of the datagram, or a packet was reassembled, which is valid or not. -/
inductive Resulted (u : ClientUpdate P) (serverAddr : SocketAddr) (isConnectionListener : Bool) :
    Except HandlePacketError PacketHandling → ClientUpdate P → Prop
  | error (error : HandlePacketError) :
      Resulted u serverAddr isConnectionListener (.error error)
        (u.tell (.error (.handle serverAddr error)))
  | rawPacket (handling : PacketHandling) (packet : RawPacket) :
      Resulted u serverAddr isConnectionListener (.ok handling) (u.tell (.rawPacket packet))
  | invalid (bytes : Bytes) (error : ValidationError)
      (hcheck : (Rkyv.checkServer bytes : Exec (Except _ (ServerConnectionPacket P))) =
        .ok (.error error)) :
      Resulted u serverAddr isConnectionListener (.ok (.received (.reassembled bytes)))
        ((u.tell (.rawPacket (.part serverAddr .reassembled))).tell
          (.error (.packetValidation serverAddr error)))
  | valid (bytes : Bytes) (packet : ServerConnectionPacket P)
      (hcheck : Rkyv.checkServer bytes = .ok (.ok packet)) :
      Resulted u serverAddr isConnectionListener (.ok (.received (.reassembled bytes)))
        ((u.tell (.rawPacket (.part serverAddr .reassembled))).handlePacket serverAddr
          isConnectionListener packet)

theorem resulted {u u' : ClientUpdate P} {serverAddr : SocketAddr} {isConnectionListener : Bool}
    {result : Except HandlePacketError PacketHandling}
    (h : u.handleResult serverAddr isConnectionListener result = .ok u') :
    u.Resulted serverAddr isConnectionListener result u' := by
  unfold handleResult at h
  split at h
  · cases h
    exact .error _
  · cases h
    exact .rawPacket _ _
  · cases h
    exact .rawPacket _ _
  · obtain ⟨checked, hcheck, hrest⟩ := exists_of_bind_ok h
    cases checked with
    | error error =>
      cases hrest
      exact .invalid _ error hcheck
    | ok packet =>
      cases hrest
      exact .valid _ packet hcheck
  · cases h
    exact .rawPacket _ _
  · cases h
    exact .rawPacket _ _

theorem Resulted.cases {u u' : ClientUpdate P} {serverAddr : SocketAddr}
    {isConnectionListener : Bool} {result : Except HandlePacketError PacketHandling}
    (h : u.Resulted serverAddr isConnectionListener result u') :
    u'.client.listeners = u.client.listeners ∧
      (u'.client.state = u.client.state ∨
        isConnectionListener = true ∧
          (u'.client.state = .disconnected ∨
            u.client.state = .connecting ∧ u'.client.state = .connected)) := by
  cases h with
  | error error => exact ⟨rfl, Or.inl rfl⟩
  | rawPacket handling packet => exact ⟨rfl, Or.inl rfl⟩
  | invalid bytes error hcheck => exact ⟨rfl, Or.inl rfl⟩
  | valid bytes packet hcheck => exact handlePacket_cases _ serverAddr isConnectionListener packet

/-- What a datagram from a compatible server can do. -/
theorem handleCompatible_cases {u u' : ClientUpdate P} {isConnectionListener : Bool} {index : ℕ}
    {listener : ServerListener P} {buffers : PacketBuffers} {lastInteraction : ℕ} {buf : Bytes}
    (hstate : listener.state = .compatible buffers lastInteraction)
    (h : u.handleCompatible isConnectionListener index listener buffers buf = .ok u') :
    ∃ listener', listener.Evolves listener' ∧ listener'.state.isCompatible = true ∧
      u'.client.listeners = u.client.listeners.set index listener' ∧
      (u'.client.state = u.client.state ∨
        isConnectionListener = true ∧
          (u'.client.state = .disconnected ∨
            u.client.state = .connecting ∧ u'.client.state = .connected)) := by
  unfold handleCompatible at h
  dsimp only at h
  split_ifs at h with hping
  · simp only [pure, Except.pure, Except.ok.injEq] at h
    subst h
    obtain ⟨hlisteners, hcases⟩ := handlePing_cases (u.setListener index
      { listener with state := .compatible buffers u.env.now }) listener.serverAddr buf
    refine ⟨{ listener with state := .compatible buffers u.env.now },
      .of_buffers hstate (fun _ hid => hid) _, rfl, hlisteners, ?_⟩
    rcases hcases with hsame | hdisconnected
    · exact Or.inl hsame
    · exact Or.inr ⟨hping.1, Or.inl hdisconnected⟩
  · simp only [setListener_env] at h
    obtain ⟨⟨result, buffers', env'⟩, hhandle, hrest⟩ := exists_of_bind_ok h
    obtain ⟨hlisteners, hcases⟩ := (resulted hrest).cases
    refine ⟨{ listener with state := .compatible buffers' u.env.now },
      .of_buffers hstate (PacketBuffers.handle_outstanding hhandle) _, rfl, ?_, hcases⟩
    rw [hlisteners]
    simp

/-- **What a datagram can do.**  The listener at position 0 evolves, and the state of the connection
makes a step; if the datagram does not come from the server at position 0 then neither changes. -/
theorem handleDatagram_cases {handler : ClientHandler P} {u u' : ClientUpdate P}
    {serverAddr : SocketAddr} {buf : Bytes}
    (h : u.handleDatagram handler serverAddr buf = .ok u') :
    FrontEvolves u.client.listeners u'.client.listeners ∧ u.StateStep u' ∧
      ∀ l, u.client.listeners.head? = some l → l.serverAddr ≠ serverAddr →
        u'.client.state = u.client.state ∧ u'.client.listeners.head? = some l := by
  unfold handleDatagram at h
  cases hposition : u.client.position serverAddr with
  | none =>
    rw [hposition] at h
    cases h
    exact ⟨.refl _, Or.inl rfl, fun l hl _ => ⟨rfl, hl⟩⟩
  | some found =>
    obtain ⟨index, listener⟩ := found
    rw [hposition] at h
    obtain ⟨hget, haddr⟩ := Client.position_eq_some hposition
    -- the listener at position 0 is another one if it is the one of another server
    have hfront : ∀ listener' l, u.client.listeners.head? = some l → l.serverAddr ≠ serverAddr →
        index ≠ 0 ∧ (u.client.listeners.set index listener').head? = some l := by
      intro listener' l hl hne
      cases hlisteners : u.client.listeners with
      | nil =>
        rw [hlisteners] at hl
        cases hl
      | cons first rest =>
        rw [hlisteners] at hl hget
        cases hl
        cases index with
        | zero =>
          cases hget
          exact absurd haddr hne
        | succ index => exact ⟨Nat.succ_ne_zero index, rfl⟩
    dsimp only at h
    split at h
    · rename_i lastVersionQuery hstate
      cases h
      obtain ⟨hsame, listener', hevolves, hset⟩ := handleVersion_cases handler buf
        (by rw [hstate]; rfl) hget
      rw [hset, hsame]
      refine ⟨.set hget hevolves, Or.inl hsame, fun l hl hne => ⟨rfl, (hfront _ l hl hne).2⟩⟩
    · rename_i buffers lastInteraction hstate
      obtain ⟨listener', hevolves, hcompatible, hset, hcases⟩ :=
        handleCompatible_cases hstate h
      refine ⟨hset ▸ .set hget hevolves, ?_, fun l hl hne => ?_⟩
      · rcases hcases with hsame | ⟨hconnection, hdisconnected | ⟨hconnecting, hconnected⟩⟩
        · exact Or.inl hsame
        · exact Or.inr (Or.inl hdisconnected)
        · refine Or.inr (Or.inr ⟨hconnecting, hconnected, listener', ?_, hcompatible⟩)
          obtain ⟨rfl, -⟩ := of_decide_eq_true hconnection
          rw [hset]
          cases hlisteners : u.client.listeners with
          | nil =>
            rw [hlisteners] at hget
            cases hget
          | cons first rest => rfl
      · obtain ⟨hindex, hhead⟩ := hfront listener' l hl hne
        refine ⟨?_, hset ▸ hhead⟩
        rcases hcases with hsame | ⟨hconnection, -⟩
        · exact hsame
        · exact absurd (of_decide_eq_true hconnection).1 hindex
    · cases h
      exact ⟨.refl _, Or.inl rfl, fun l hl _ => ⟨rfl, hl⟩⟩

omit [Rkyv P] in
/-- Two steps of the state are one. -/
theorem StateStep.trans {u v w : ClientUpdate P} (h : u.StateStep v) (h' : v.StateStep w)
    (hfront : FrontEvolves v.client.listeners w.client.listeners) : u.StateStep w := by
  rcases h' with hsame' | hdisconnected' | ⟨hconnecting', hconnected', hcompatible'⟩
  · rcases h with hsame | hdisconnected | ⟨hconnecting, hconnected, l, hl, hcompatible⟩
    · exact Or.inl (hsame'.trans hsame)
    · exact Or.inr (Or.inl (hsame'.trans hdisconnected))
    · obtain ⟨l', hl', hevolves⟩ := hfront l hl
      exact Or.inr (Or.inr ⟨hconnecting, hsame'.trans hconnected, l', hl',
        hevolves.isCompatible hcompatible⟩)
  · exact Or.inr (Or.inl hdisconnected')
  · rcases h with hsame | hdisconnected | ⟨-, hconnected, -⟩
    · exact Or.inr (Or.inr ⟨hsame ▸ hconnecting', hconnected', hcompatible'⟩)
    · rw [hdisconnected] at hconnecting'
      cases hconnecting'
    · rw [hconnected] at hconnecting'
      cases hconnecting'

/-- The receive loop handles the datagrams in order, and reports an error of the socket. -/
theorem receive_eq_ok {handler : ClientHandler P} {u u' : ClientUpdate P} {incoming : Incoming}
    (h : u.receive handler incoming = .ok u') :
    ∃ v, incoming.datagrams.foldlM (fun u (serverAddr, datagram) =>
        u.handleDatagram handler serverAddr (recv datagram)) u = .ok v ∧
      u' = incoming.error.elim v fun error => v.tell (.error (.recv error)) := by
  unfold receive at h
  cases hfold : incoming.datagrams.foldlM (fun u (serverAddr, datagram) =>
      u.handleDatagram handler serverAddr (recv datagram)) u with
  | error abort => simp [hfold, bind, Except.bind] at h
  | ok v =>
    simp only [hfold, bind, Except.bind, pure, Except.pure, Except.ok.injEq] at h
    exact ⟨v, rfl, h.symm⟩

omit [Rkyv P] in
/-- What the receive loop leaves behind is what the last datagram left behind. -/
theorem client_reported (v : ClientUpdate P) (error : Option IoError) :
    (error.elim v fun error => v.tell (.error (.recv error))).client = v.client := by
  cases error <;> rfl

/-- **What the receive loop can do.**  The same as a single datagram. -/
theorem receive_cases {handler : ClientHandler P} {u u' : ClientUpdate P} {incoming : Incoming}
    (h : u.receive handler incoming = .ok u') :
    FrontEvolves u.client.listeners u'.client.listeners ∧ u.StateStep u' := by
  obtain ⟨v, hfold, rfl⟩ := receive_eq_ok h
  unfold StateStep
  rw [client_reported]
  refine Vec.foldlM_rule
    (R := fun u v => FrontEvolves u.client.listeners v.client.listeners ∧ u.StateStep v)
    (fun u => ⟨.refl _, Or.inl rfl⟩) (fun u v w h h' => ?_) (fun u v datagram _ hv => ?_) hfold
  · exact ⟨h.1.trans h'.1, h.2.trans h'.2 h'.1⟩
  · obtain ⟨hfront, hstep, -⟩ := handleDatagram_cases hv
    exact ⟨hfront, hstep⟩

end Receive

/-! ### Timeouts -/

/-- The server of a listener was silent for longer than the timeout. -/
def idle (timeout : Option ℕ) (now : ℕ) (l : ServerListener P) : Bool :=
  match l.state with
  | .compatible _ lastInteraction =>
      timeout.any fun timeout => timeout < elapsed now lastInteraction
  | _ => false

theorem timeoutListener_of_idle {timeout : Option ℕ} {now : ℕ} {l : ServerListener P}
    (h : idle timeout now l = true) (pass : ClientState × List (ClientEvent P)) :
    timeoutListener timeout now pass l =
      ((.disconnected, pass.2 ++ [.error (.timeout l.serverAddr)]), none) := by
  unfold idle at h
  unfold timeoutListener
  cases hl : l.state with
  | compatible buffers lastInteraction =>
    rw [hl] at h
    exact if_pos h
  | pendingVersion _ => simp [hl] at h
  | incompatible _ => simp [hl] at h

theorem timeoutListener_of_not_idle {timeout : Option ℕ} {now : ℕ} {l : ServerListener P}
    (h : ¬idle timeout now l = true) (pass : ClientState × List (ClientEvent P)) :
    timeoutListener timeout now pass l = (pass, some l) := by
  unfold idle at h
  unfold timeoutListener
  cases hl : l.state with
  | compatible buffers lastInteraction =>
    rw [hl] at h
    exact if_neg h
  | pendingVersion _ => rfl
  | incompatible _ => rfl

/-- The timeout pass keeps the listeners that are not idle, and ends the connection if there are
others. -/
theorem timeoutListeners_eq (timeout : Option ℕ) (now : ℕ) (ls : List (ServerListener P))
    (pass : ClientState × List (ClientEvent P)) :
    (Vec.retainMut (timeoutListener timeout now) pass ls).2 =
        ls.filter (fun l => !idle timeout now l) ∧
      (Vec.retainMut (timeoutListener timeout now) pass ls).1.1 =
        if ls.any (idle timeout now) then .disconnected else pass.1 := by
  induction ls generalizing pass with
  | nil => simp
  | cons l ls ih =>
    rw [Vec.retainMut_cons]
    by_cases hidle : idle timeout now l = true
    · obtain ⟨hkept, hstate⟩ := ih (.disconnected, pass.2 ++ [.error (.timeout l.serverAddr)])
      rw [timeoutListener_of_idle hidle]
      refine ⟨?_, ?_⟩
      · simp [hkept, hidle]
      · simp [hstate, hidle]
    · obtain ⟨hkept, hstate⟩ := ih pass
      rw [timeoutListener_of_not_idle hidle]
      refine ⟨?_, ?_⟩
      · simp [hkept, hidle]
      · simp [hstate, hidle]

/-- **What the timeout pass does.** -/
theorem timeoutConnection_eq (u : ClientUpdate P) :
    u.timeoutConnection.client.listeners =
        u.client.listeners.filter (fun l => !idle u.client.config.timeout u.env.now l) ∧
      u.timeoutConnection.client.state =
        if u.client.listeners.any (idle u.client.config.timeout u.env.now) then .disconnected
        else u.client.state :=
  timeoutListeners_eq _ _ _ _

/-- Unless the timeout pass ends the connection, it does nothing. -/
theorem timeoutConnection_cases (u : ClientUpdate P) :
    u.timeoutConnection.client.state = .disconnected ∨
      (u.timeoutConnection.client.state = u.client.state ∧
        u.timeoutConnection.client.listeners = u.client.listeners) := by
  obtain ⟨hlisteners, hstate⟩ := u.timeoutConnection_eq
  rw [hlisteners, hstate]
  split_ifs with hany
  · exact Or.inl rfl
  · refine Or.inr ⟨rfl, List.filter_eq_self.mpr fun l hl => ?_⟩
    simp only [List.any_eq_true, not_exists, not_and] at hany
    simpa using hany l hl

end ClientUpdate

namespace Client

variable [Rkyv P] {c : Client P} {handler : ClientHandler P} {incoming : Incoming} {env : Env}
  {u : ClientUpdate P}

/-- The three passes of an update. -/
theorem update_eq_ok (h : c.update handler incoming env = .ok u) :
    ∃ v, ClientUpdate.receive handler
        (ClientUpdate.updateListeners { client := c, env, events := [] }) incoming = .ok v ∧
      u = v.timeoutConnection := by
  unfold update at h
  cases hreceive : ClientUpdate.receive handler
      (ClientUpdate.updateListeners { client := c, env, events := [] }) incoming with
  | error abort => simp [hreceive, bind, Except.bind] at h
  | ok v =>
    simp only [hreceive, bind, Except.bind, pure, Except.pure, Except.ok.injEq] at h
    exact ⟨v, rfl, h.symm⟩

/-- What an update can do to the state of the connection. -/
theorem update_state (h : c.update handler incoming env = .ok u) :
    u.client.state = c.state ∨ u.client.state = .disconnected ∨
      (c.state = .connecting ∧ u.client.state = .connected) := by
  obtain ⟨v, hreceive, rfl⟩ := update_eq_ok h
  obtain ⟨-, hstep⟩ := ClientUpdate.receive_cases hreceive
  rcases v.timeoutConnection_cases with hdisconnected | ⟨hsame, -⟩
  · exact Or.inr (Or.inl hdisconnected)
  rw [hsame]
  rcases ClientUpdate.updateListeners_state { client := c, env, events := [] } with hpass | hpass
  · rcases hstep with heq | hdisconnected | ⟨hconnecting, hconnected, -⟩
    · exact Or.inl (heq.trans hpass)
    · exact Or.inr (Or.inl hdisconnected)
    · exact Or.inr (Or.inr ⟨hpass.symm.trans hconnecting, hconnected⟩)
  · rcases hstep with heq | hdisconnected | ⟨hconnecting, -⟩
    · exact Or.inr (Or.inl (heq.trans hpass))
    · exact Or.inr (Or.inl hdisconnected)
    · rw [hpass] at hconnecting
      cases hconnecting

/-- A client that is disconnected does not get connected by an update. -/
theorem update_of_disconnected (hstate : c.state = .disconnected)
    (h : c.update handler incoming env = .ok u) : u.client.state = .disconnected := by
  rcases update_state h with hsame | hdisconnected | ⟨hconnecting, -⟩
  · exact hsame.trans hstate
  · exact hdisconnected
  · rw [hstate] at hconnecting
    cases hconnecting

/-- **What an update can do to a connection.**  It ends; or the listener at position 0 is updated and
then evolves, and the client may get accepted; or that listener is dropped, and the state stays,
because a version query to its server fails. -/
theorem update_cases {l : ServerListener P} (hfront : c.listeners.head? = some l)
    (hstate : c.state ≠ .disconnected) (h : c.update handler incoming env = .ok u) :
    u.client.state = .disconnected ∨
      (∃ l₁ env₁ l', l.update (some c.state) c.config env = (some l₁, some c.state, none, env₁) ∧
        u.client.listeners.head? = some l' ∧ l₁.Evolves l' ∧
        (u.client.state = c.state ∨ c.state = .connecting ∧ u.client.state = .connected ∧
          l'.state.isCompatible = true)) ∨
      ∃ error, l.VersionQueryDue c.config env.now ∧
        env.answer env.attempts (l.serverAddr, []) = .failed error := by
  obtain ⟨v, hreceive, rfl⟩ := update_eq_ok h
  obtain ⟨ls, hlisteners⟩ : ∃ ls, c.listeners = l :: ls := by
    cases hc : c.listeners with
    | nil =>
      rw [hc] at hfront
      cases hfront
    | cons first rest =>
      rw [hc] at hfront
      cases hfront
      exact ⟨rest, rfl⟩
  obtain ⟨hevolves, hstep⟩ := ClientUpdate.receive_cases hreceive
  rcases v.timeoutConnection_cases with hdisconnected | ⟨hsame, hlast⟩
  · exact Or.inl hdisconnected
  rcases l.update_cases (some c.state) c.config env with
    ⟨l₁, env₁, hupdate, -, -⟩ | ⟨error, env₁, hupdate, hdue, hanswer⟩ | ⟨error, env₁, hupdate, -⟩
  · obtain ⟨hpass, rest, hkept⟩ := ClientUpdate.updateListeners_cons
      (u := { client := c, env, events := [] }) hlisteners hstate hupdate
    obtain ⟨l', hl', hl₁⟩ := hevolves l₁ (by rw [hkept]; rfl)
    have hpass' : (ClientUpdate.updateListeners
      { client := c, env, events := [] }).client.state = c.state := hpass
    rcases hstep with heq | hdisconnected | ⟨hconnecting, hconnected, l'', hl'', hcompatible⟩
    · exact Or.inr (Or.inl ⟨l₁, env₁, l', hupdate, hlast ▸ hl', hl₁,
        Or.inl (hsame.trans (heq.trans hpass'))⟩)
    · exact Or.inl (hsame.trans hdisconnected)
    · refine Or.inr (Or.inl ⟨l₁, env₁, l', hupdate, hlast ▸ hl', hl₁,
        Or.inr ⟨hpass'.symm.trans hconnecting, hsame.trans hconnected, ?_⟩⟩)
      rw [hl'] at hl''
      cases hl''
      exact hcompatible
  · exact Or.inr (Or.inr ⟨error, hdue, hanswer⟩)
  · obtain ⟨hpass, -, -⟩ := ClientUpdate.updateListeners_cons
      (u := { client := c, env, events := [] }) hlisteners hstate hupdate
    have hpass' : (ClientUpdate.updateListeners
      { client := c, env, events := [] }).client.state = .disconnected := hpass
    refine Or.inl (hsame.trans ?_)
    rcases hstep with heq | hdisconnected | ⟨hconnecting, -⟩
    · exact heq.trans hpass'
    · exact hdisconnected
    · rw [hpass'] at hconnecting
      cases hconnecting

end Client

/-! ## The system -/

/-- A client in a run, with what its caller remembers. -/
structure ClientRun (P : Packets) where
  client : Client P
  /-- The address given to the connect call that last succeeded. -/
  target : Option SocketAddr
  /-- The packet id returned by the last successful disconnect call. -/
  disconnectId : Option PacketId

/-- The operations of a client, with what the environment answers. -/
inductive ClientOp (P : Packets)
  | listen (serverAddr : SocketAddr) (env : Env)
  | query (serverAddr : SocketAddr) (query : P.Query) (env : Env)
  | connect (peer : IoResult SocketAddr) (connect : P.Connect) (env : Env)
  | disconnect (disconnect : P.Disconnect) (env : Env)
  | send (packet : P.Client) (env : Env)
  | forget (serverAddr : SocketAddr)
  | forgetAll
  | refreshAll (env : Env)
  | update (handler : ClientHandler P) (incoming : Incoming) (env : Env)

namespace ClientRun

/-- The beginning. -/
def init (config : ClientConfig) : ClientRun P where
  client := .new config
  target := none
  disconnectId := none

variable [Rkyv P]

/-- One operation; there is no next state if it panics. -/
def step (r : ClientRun P) : ClientOp P → Option (ClientRun P)
  | .listen serverAddr env =>
      let (_, client, _) := r.client.listen serverAddr env.start
      some { r with client }
  | .query serverAddr query env => do
      let (_, client, _) ← (r.client.query serverAddr query env.start).toOption
      return { r with client }
  | .connect peer connect env => do
      let (result, client, _) ← (r.client.connect peer connect env.start).toOption
      return { r with client, target := if result.isOk then peer.toOption else r.target }
  | .disconnect disconnect env => do
      let (result, client, _) ← (r.client.disconnect disconnect env.start).toOption
      return { r with client, disconnectId := result.toOption.or r.disconnectId }
  | .send packet env => do
      let (_, client, _) ← (r.client.send packet env.start).toOption
      return { r with client }
  | .forget serverAddr => some { r with client := (r.client.forget serverAddr).2 }
  | .forgetAll => do
      let client ← r.client.forgetAll.toOption
      return { r with client }
  | .refreshAll env =>
      let (_, client, _) := r.client.refreshAll env.start
      some { r with client }
  | .update handler incoming env => do
      let u ← (r.client.update handler incoming env.start).toOption
      return { r with client := u.client }

/-- The transition system of a client. -/
def system (P : Packets) [Rkyv P] : Lts (ClientRun P) (ClientOp P) where
  step := step

/-- A connect packet is being sent to a compatible server, which makes it the server to connect to. -/
structure StartsConnecting (r : ClientRun P) (op : ClientOp P) (r' : ClientRun P)
    (index : ℕ) (l l' : ServerListener P) : Prop where
  op_eq : ∃ connect env buffers lastInteraction packetId buffers' env',
    op = .connect (.ok l.serverAddr) connect env ∧
    l.state = .compatible buffers lastInteraction ∧
    buffers.send (Rkyv.serializeClient (.connect connect))
      r.client.config.connection.backgroundSerializationThreshold l.serverAddr env.start =
        .ok (.ok packetId, buffers', env')
  state : r.client.state = .disconnected
  position : r.client.position l.serverAddr = some (index, l)
  serverAddr : l'.serverAddr = l.serverAddr
  client_eq : r'.client = { r.client with
    state := .connecting, listeners := r.client.listeners.set index l' }
  target : r'.target = some l.serverAddr
  disconnectId : r'.disconnectId = r.disconnectId

/-- A disconnect packet is being sent to the connected server. -/
structure StartsDisconnecting (r r' : ClientRun P) (packetId : PacketId) (l : ServerListener P) :
    Prop where
  state : r.client.state = .connected
  state' : r'.client.state = .disconnecting
  front : FrontEvolves r.client.listeners r'.client.listeners
  head : r'.client.listeners.head? = some l
  outstanding : l.outstanding packetId = true
  target : r'.target = r.target
  disconnectId : r'.disconnectId = some packetId

/-- A step that is an update. -/
theorem step_update {r r' : ClientRun P} {handler : ClientHandler P} {incoming : Incoming} {env : Env}
    (h : r.step (.update handler incoming env) = some r') :
    ∃ u, r.client.update handler incoming env.start = .ok u ∧ r' = { r with client := u.client } := by
  obtain ⟨u, hupdate, hr⟩ := exists_of_bind_toOption h
  cases hr
  exact ⟨u, hupdate, rfl⟩

/-- **Everything a step can do.** -/
theorem step_cases {r r' : ClientRun P} {op : ClientOp P} (h : r.step op = some r') :
    (r.client.Steady r'.client ∧ r'.target = r.target ∧ r'.disconnectId = r.disconnectId) ∨
      (r'.client.state = .disconnected ∧ r'.target = r.target ∧
        r'.disconnectId = r.disconnectId) ∨
      (∃ index l l', r.StartsConnecting op r' index l l') ∨
      (∃ packetId l, r.StartsDisconnecting r' packetId l) ∨
      (∃ env, op = .refreshAll env ∧
        r' = { r with client := (r.client.refreshAll env.start).2.1 }) ∨
      ∃ handler incoming env u, op = .update handler incoming env ∧
        r.client.update handler incoming env.start = .ok u ∧ r' = { r with client := u.client } := by
  cases op with
  | listen serverAddr env =>
    cases h
    exact Or.inl ⟨r.client.listen_steady serverAddr env.start, rfl, rfl⟩
  | query serverAddr query env =>
    obtain ⟨⟨result, client, env'⟩, hquery, hr⟩ := exists_of_bind_toOption h
    cases hr
    exact Or.inl ⟨Client.query_steady hquery, rfl, rfl⟩
  | connect peer connect env =>
    obtain ⟨⟨result, client, env'⟩, hconnect, hr⟩ := exists_of_bind_toOption h
    cases hr
    rcases Client.connect_cases hconnect with ⟨error, rfl, hstate, hsame, -⟩ |
      ⟨packetId, serverAddr, index, l, l', rfl, rfl, hstate, hposition, hsends, rfl⟩
    · refine Or.inl ⟨⟨hstate, fun hne => ?_⟩, rfl, rfl⟩
      rw [show client = r.client from hsame hne]
      exact .refl _
    · obtain ⟨-, rfl⟩ := Client.position_eq_some hposition
      obtain ⟨buffers, lastInteraction, buffers', hcompatible, hsend, rfl⟩ := hsends.send
      exact Or.inr (Or.inr (Or.inl ⟨index, l, { l with
        state := .compatible buffers' lastInteraction },
        ⟨⟨connect, env, buffers, lastInteraction, packetId, buffers', env', rfl, hcompatible,
          hsend⟩, hstate, hposition, rfl, rfl, rfl, rfl⟩⟩))
  | disconnect disconnect env =>
    obtain ⟨⟨result, client, env'⟩, hdisconnect, hr⟩ := exists_of_bind_toOption h
    cases hr
    rcases Client.sendConnected_cases hdisconnect with ⟨-, rfl, rfl⟩ | ⟨-, ⟨error, rfl⟩, hstate⟩ |
      ⟨hstate, hstate', hfront, packetId, l, rfl, hhead, houtstanding⟩
    · exact Or.inl ⟨.refl _, rfl, rfl⟩
    · exact Or.inr (Or.inl ⟨hstate, rfl, rfl⟩)
    · exact Or.inr (Or.inr (Or.inr (Or.inl ⟨packetId, l,
        ⟨hstate, hstate', hfront, hhead, houtstanding, rfl, rfl⟩⟩)))
  | send packet env =>
    obtain ⟨⟨result, client, env'⟩, hsend, hr⟩ := exists_of_bind_toOption h
    cases hr
    rcases Client.sendConnected_cases hsend with ⟨-, -, rfl⟩ | ⟨-, -, hstate⟩ |
      ⟨hstate, hstate', hfront, -⟩
    · exact Or.inl ⟨.refl _, rfl, rfl⟩
    · exact Or.inr (Or.inl ⟨hstate, rfl, rfl⟩)
    · exact Or.inl ⟨⟨hstate'.trans hstate.symm, fun _ => hfront⟩, rfl, rfl⟩
  | forget serverAddr =>
    cases h
    exact Or.inl ⟨r.client.forget_steady serverAddr, rfl, rfl⟩
  | forgetAll =>
    obtain ⟨client, hforget, hr⟩ := exists_of_bind_toOption h
    cases hr
    exact Or.inl ⟨Client.forgetAll_steady hforget, rfl, rfl⟩
  | refreshAll env =>
    cases h
    exact Or.inr (Or.inr (Or.inr (Or.inr (Or.inl ⟨env, rfl, rfl⟩))))
  | update handler incoming env =>
    obtain ⟨u, hupdate, rfl⟩ := step_update h
    exact Or.inr (Or.inr (Or.inr (Or.inr (Or.inr ⟨handler, incoming, env, u, rfl, hupdate, rfl⟩))))

end ClientRun

end Ultinet
