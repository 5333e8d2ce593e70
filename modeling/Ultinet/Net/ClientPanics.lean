import Ultinet.Net.ConnectionSlot

/-!
# Where the client may panic

`serverAddr`, `forgetAll`, `send` and `disconnect` rely on the listener at position 0: there must be
one unless the client is disconnected, and it must be compatible while the client is connected.

`refreshAll` forgets the compatibility of all servers, the connected one included, and a listener at
position 0 that waits for a version may be dropped without the state being reset.  `no_panic` says
that apart from these two the client never panics.
-/

namespace Ultinet

namespace Client

variable {P : Packets} [Rkyv P]

/-- While the client is connected to a compatible server, sending panics only where serializing the
packet does. -/
theorem sendConnected_eq_error {c : Client P} {packet : ClientConnectionPacket P}
    {state : ClientState} {env : Env} {abort : Abort}
    (hfront : c.state = .connected →
      ∃ l, c.listeners.head? = some l ∧ l.state.isCompatible = true)
    (h : c.sendConnected packet state env = .error abort) :
    serializePacket env.newUuid.1 c.config.connection.backgroundSerializationThreshold
      (Rkyv.serializeClient packet) = .error abort := by
  unfold sendConnected at h
  split_ifs at h with hstate
  obtain ⟨l, hl, hcompatible⟩ := hfront hstate
  cases hlisteners : c.listeners with
  | nil =>
    rw [hlisteners] at hl
    cases hl
  | cons first rest =>
    rw [hlisteners] at hl h
    cases hl
    cases hl : l.state with
    | pendingVersion _ =>
      rw [hl] at hcompatible
      cases hcompatible
    | incompatible _ =>
      rw [hl] at hcompatible
      cases hcompatible
    | compatible buffers lastInteraction =>
      cases hsend : buffers.send (Rkyv.serializeClient packet)
          c.config.connection.backgroundSerializationThreshold l.serverAddr env with
      | error abort' =>
        simp only [hl, hsend, bind, Except.bind] at h
        cases h
        exact PacketBuffers.send_eq_error hsend
      | ok sent =>
        obtain ⟨sent, buffers', env'⟩ := sent
        simp only [hl, hsend, bind, Except.bind, pure, Except.pure] at h
        cases sent <;> cases h

end Client

namespace ClientRun

variable {P : Packets} [Rkyv P]

/-! ## The condition -/

/-- The compatibility of the connected server is not reset: while the client is connected,
`refreshAll` is not called, unless the version query to the server at position 0 fails. -/
def KeepsCompatibility (r : ClientRun P) : ClientOp P → Prop
  | .refreshAll env =>
      r.client.state = .connected → ∀ l, r.client.listeners.head? = some l →
        ∃ error, env.answer [] (l.serverAddr, []) = .failed error
  | _ => True

/-! ## The invariant -/

/-- Unless the client is disconnected there is a listener at position 0; while the client is
connected it is compatible. -/
def HasFront (r : ClientRun P) : Prop :=
  r.client.state ≠ .disconnected →
    ∃ l, r.client.listeners.head? = some l ∧
      (r.client.state = .connected → l.state.isCompatible = true)

omit [Rkyv P] in
/-- Replacing a listener that was found leaves one at position 0. -/
theorem exists_head_set {ls : List (ServerListener P)} {index : ℕ} {l : ServerListener P}
    (hget : ls[index]? = some l) (l' : ServerListener P) : ∃ head, (ls.set index l').head? = some head := by
  cases ls with
  | nil => cases hget
  | cons first rest =>
    cases index with
    | zero => exact ⟨l', rfl⟩
    | succ index => exact ⟨first, rfl⟩

/-- **Step lemma.** -/
theorem HasFront.step {r r' : ClientRun P} {op : ClientOp P} (h : HasFront r)
    (hrefresh : KeepsCompatibility r op) (hquery : QueriesFront r op)
    (hstep : r.step op = some r') : HasFront r' := by
  rcases step_cases hstep with ⟨hsteady, -⟩ | ⟨hdisconnected, -⟩ | ⟨index, l, l', hstarts⟩ |
    ⟨packetId, l, hstarts⟩ | ⟨env, rfl, rfl⟩ | ⟨handler, incoming, env, u, rfl, hupdate, rfl⟩
  · intro hne
    have hstate : r.client.state ≠ .disconnected := by
      rwa [← hsteady.state]
    obtain ⟨l, hl, hcompatible⟩ := h hstate
    obtain ⟨l', hl', hevolves⟩ := hsteady.front hstate l hl
    exact ⟨l', hl', fun hconnected =>
      hevolves.isCompatible (hcompatible (hsteady.state ▸ hconnected))⟩
  · intro hne
    exact absurd hdisconnected hne
  · intro _
    obtain ⟨hget, -⟩ := Client.position_eq_some hstarts.position
    obtain ⟨head, hhead⟩ := exists_head_set hget l'
    rw [hstarts.client_eq]
    exact ⟨head, hhead, fun hconnected => by cases hconnected⟩
  · intro _
    refine ⟨l, hstarts.head, fun hconnected => ?_⟩
    rw [hstarts.state'] at hconnected
    cases hconnected
  · intro hne
    obtain ⟨l, hl, hcompatible⟩ := h hne
    cases hlisteners : r.client.listeners with
    | nil =>
      rw [hlisteners] at hl
      cases hl
    | cons first rest =>
      have hfirst : first = l := by
        rw [hlisteners] at hl
        exact Option.some.inj hl
      subst hfirst
      have haddr := congrArg List.head?
        (Client.refreshListeners_serverAddr r.client.listeners env.start)
      rw [List.head?_map, List.head?_map, hl] at haddr
      obtain ⟨l', hl', -⟩ := Option.map_eq_some_iff.mp haddr
      refine ⟨l', hl', fun hconnected => ?_⟩
      -- the query to the connected server fails, so nothing was refreshed
      obtain ⟨error, hanswer⟩ := hrefresh hconnected first hl
      have hsame := Client.refreshListeners_of_failed rest env.start hanswer
      rw [hlisteners, hsame] at hl'
      cases hl'
      exact hcompatible hconnected
  · intro hne
    have hstate : r.client.state ≠ .disconnected := fun hdisconnected =>
      hne (Client.update_of_disconnected hdisconnected hupdate)
    obtain ⟨l, hl, hcompatible⟩ := h hstate
    rcases Client.update_cases hl hstate hupdate with
      hdisconnected | ⟨l₁, env₁, l', hl₁, hl', hevolves, hcases⟩ | ⟨error, hdue, hanswer⟩
    · exact absurd hdisconnected hne
    · refine ⟨l', hl', fun hconnected => ?_⟩
      rcases hcases with hsame | ⟨-, -, hcompatible'⟩
      · refine hevolves.isCompatible ?_
        rcases l.update_cases (some r.client.state) r.client.config env.start with
          ⟨l₂, env₂, hl₂, -, hkept⟩ | ⟨_, _, hl₂, -⟩ | ⟨_, _, hl₂, -⟩ <;>
        · rw [hl₁] at hl₂
          cases hl₂
          all_goals exact hkept (hcompatible (hsame ▸ hconnected))
      · exact hcompatible'
    · exact absurd hanswer (hquery hstate l hl hdue error)

/-! ## Runs -/

/-- The operations that rely on the listener at position 0 do not panic, apart from the packets that
cannot be serialized. -/
structure NoPanic (c : Client P) : Prop where
  serverAddr : ∃ serverAddr, c.serverAddr = .ok serverAddr
  forgetAll : ∃ c', c.forgetAll = .ok c'
  send : ∀ packet env abort, c.send packet env = .error abort →
    serializePacket env.newUuid.1 c.config.connection.backgroundSerializationThreshold
      (Rkyv.serializeClient (.user packet)) = .error abort
  disconnect : ∀ disconnect env abort, c.disconnect disconnect env = .error abort →
    serializePacket env.newUuid.1 c.config.connection.backgroundSerializationThreshold
      (Rkyv.serializeClient (.disconnect disconnect)) = .error abort

/-- **No panic.**  If in a run of a client the compatibility of the connected server is not reset, and
no version query to the server at position 0 fails in an update while there is a connection, then
unless the client is disconnected there is a listener at position 0, while the client is connected it
is compatible, and the operations that rely on that do not panic. -/
theorem no_panic {config : ClientConfig} {r : ClientRun P}
    (hrun : (system P).GuardedRun (fun r op => KeepsCompatibility r op ∧ QueriesFront r op)
      (init config) r) :
    (r.client.state ≠ .disconnected → r.client.listeners ≠ []) ∧
      (r.client.state = .connected →
        ∃ l, r.client.listeners.head? = some l ∧ l.state.isCompatible = true) ∧
      NoPanic r.client := by
  have hinvariant : HasFront r :=
    hrun.invariant (fun s op t h hok hstep => h.step hok.1 hok.2 hstep) fun hne => absurd rfl hne
  have hnonempty : r.client.state ≠ .disconnected → r.client.listeners ≠ [] := by
    intro hne hnil
    obtain ⟨l, hl, -⟩ := hinvariant hne
    rw [hnil] at hl
    cases hl
  have hfront : r.client.state = .connected →
      ∃ l, r.client.listeners.head? = some l ∧ l.state.isCompatible = true := by
    intro hconnected
    obtain ⟨l, hl, hcompatible⟩ := hinvariant (by rw [hconnected]; simp)
    exact ⟨l, hl, hcompatible hconnected⟩
  refine ⟨hnonempty, hfront, ⟨?_, ?_, ?_, ?_⟩⟩
  · unfold Client.serverAddr
    cases hstate : r.client.state with
    | disconnected => exact ⟨none, rfl⟩
    | _ =>
      obtain ⟨l, hl, -⟩ := hinvariant (by rw [hstate]; simp)
      exact ⟨some l.serverAddr, by simp [hl]⟩
  · unfold Client.forgetAll
    split_ifs with hstate
    · exact ⟨_, rfl⟩
    · split
      · rename_i hnil
        exact absurd hnil (hnonempty hstate)
      · exact ⟨_, rfl⟩
  · intro packet env abort hsend
    exact Client.sendConnected_eq_error hfront hsend
  · intro disconnect env abort hdisconnect
    exact Client.sendConnected_eq_error hfront hdisconnect

/-! ## Two runs -/

/-- The reply of a server that accepts the client: an only part. -/
def acceptPart : Bytes :=
  partDatagram true (.replicate 9) 0 [1]

/-- Why a computation stopped. -/
def aborted {α : Type} : Exec α → Option Abort
  | .error abort => some abort
  | .ok _ => none

theorem eq_error_of_aborted {α : Type} {x : Exec α} {abort : Abort}
    (h : aborted x = some abort) : x = .error abort := by
  cases x with
  | error abort' =>
    cases h
    rfl
  | ok a => cases h

/-- Neither condition is violated: nothing is refreshed and no version query would fail. -/
def checkNoRefresh {P : Packets} (r : ClientRun P) : ClientOp P → Bool
  | .refreshAll _ => false
  | .update _ _ env =>
      r.client.listeners.head?.all fun l => env.answer [] (l.serverAddr, []) = .sent
  | _ => true

theorem checkNoRefresh_sound {P : Packets} [Rkyv P] {r : ClientRun P} {op : ClientOp P}
    (h : checkNoRefresh r op = true) : KeepsCompatibility r op ∧ QueriesFront r op := by
  cases op with
  | refreshAll env => cases h
  | update handler incoming env =>
    refine ⟨trivial, fun _ l hl _ error hanswer => ?_⟩
    simp [checkNoRefresh, hl, hanswer] at h
  | _ => exact ⟨trivial, trivial⟩

/-- A client that connects to a server and is accepted can use the connection. -/
theorem no_panic_connected :
    ∃ r : ClientRun DefaultPackets,
      (system DefaultPackets).GuardedRun (fun r op => KeepsCompatibility r op ∧ QueriesFront r op)
        (init .default) r ∧
      r.client.state = .connected ∧
      ((r.client.state ≠ .disconnected → r.client.listeners ≠ []) ∧
        (r.client.state = .connected →
          ∃ l, r.client.listeners.head? = some l ∧ l.state.isCompatible = true) ∧
        NoPanic r.client) := by
  obtain ⟨r, hrun, hr⟩ := Lts.exists_guardedRun (system DefaultPackets)
    (fun r op => KeepsCompatibility r op ∧ QueriesFront r op) checkNoRefresh (init .default)
    [.listen 1 (.accepting 0), updateWith [(1, versionReply)] (.accepting 1),
      .connect (.ok 1) () (.accepting 2), updateWith [(1, acceptPart)] (.accepting 3)]
    (fun r => decide (r.client.state = .connected))
    (fun r op _ => checkNoRefresh_sound) (by decide +kernel)
  exact ⟨r, hrun, of_decide_eq_true hr, no_panic hrun⟩

/-- After a connected client refreshes its servers, disconnecting panics.  A client that is connecting
and refreshes its only server loses it when the next version query fails, and then asking for the
address of the server panics. -/
theorem no_panic_wrong :
    (∃ r : ClientRun DefaultPackets,
      (system DefaultPackets).GuardedRun (fun _ _ => True) (init .default) r ∧
      r.client.state = .connected ∧
      r.client.disconnect () (.accepting 5) =
        .error (.panic "connected server should be compatible")) ∧
    ∃ r : ClientRun DefaultPackets,
      (system DefaultPackets).GuardedRun (fun _ _ => True) (init .default) r ∧
      r.client.state = .connecting ∧
      r.client.serverAddr = .error (.panic "servers should not be empty") := by
  constructor
  · obtain ⟨r, hrun, hr⟩ := Lts.exists_guardedRun (system DefaultPackets)
      (fun _ _ => True) (fun _ _ => true) (init .default)
      [.listen 1 (.accepting 0), updateWith [(1, versionReply)] (.accepting 1),
        .connect (.ok 1) () (.accepting 2), updateWith [(1, acceptPart)] (.accepting 3),
        .refreshAll (.accepting 4)]
      (fun r => decide (r.client.state = .connected ∧
        aborted (r.client.disconnect () (.accepting 5)) =
          some (.panic "connected server should be compatible")))
      (fun _ _ _ _ => trivial) (by decide +kernel)
    obtain ⟨hstate, haborted⟩ := of_decide_eq_true hr
    exact ⟨r, hrun, hstate, eq_error_of_aborted haborted⟩
  · obtain ⟨r, hrun, hr⟩ := Lts.exists_guardedRun (system DefaultPackets)
      (fun _ _ => True) (fun _ _ => true) (init .default)
      [.listen 1 (.accepting 0), updateWith [(1, versionReply)] (.accepting 1),
        .connect (.ok 1) () (.accepting 2), .refreshAll (.accepting 3),
        updateWith [] (.unreachable 2000)]
      (fun r => decide (r.client.state = .connecting ∧
        r.client.serverAddr = .error (.panic "servers should not be empty")))
      (fun _ _ _ _ => trivial) (by decide +kernel)
    obtain ⟨hstate, haddr⟩ := of_decide_eq_true hr
    exact ⟨r, hrun, hstate, haddr⟩

end ClientRun

end Ultinet
