import Ultinet.Net.ClientSystem

/-!
# Which server the connection is to

The client keeps the state of the connection apart from the listeners and takes the listener at
position 0 for the one of the connected server.  Nothing puts it there: `connect` sends its packet to
the listener of the server wherever that listener is.  And a listener at position 0 that waits for
the version of its server is dropped, when a version query fails, without the state being reset.

`connection_slot` says that these are the only two ways in which the position and the state of the
connection part.
-/

namespace Ultinet

namespace ClientRun

variable {P : Packets} [Rkyv P]

/-! ## The two conditions -/

/-- A connect packet is only sent to the server at position 0: no connect call is made for another
compatible server to which its packet can be sent. -/
def ConnectsToFront (r : ClientRun P) : ClientOp P → Prop
  | .connect (.ok serverAddr) connect env =>
      r.client.state = .disconnected →
        ∀ index listener buffers lastInteraction,
          r.client.position serverAddr = some (index, listener) →
          listener.state = .compatible buffers lastInteraction →
          (∃ packetId buffers' env', buffers.send (Rkyv.serializeClient (.connect connect))
            r.client.config.connection.backgroundSerializationThreshold serverAddr env.start =
              .ok (.ok packetId, buffers', env')) →
          index = 0
  | _ => True

/-- While there is a connection, no update finds that a version query to the server at position 0 is
due and fails. -/
def QueriesFront (r : ClientRun P) : ClientOp P → Prop
  | .update _ _ env =>
      r.client.state ≠ .disconnected →
        ∀ l, r.client.listeners.head? = some l → l.VersionQueryDue r.client.config env.now →
          ∀ error, env.answer [] (l.serverAddr, []) ≠ .failed error
  | _ => True

/-! ## The invariant -/

/-- Unless the client is disconnected, the listener at position 0 is the one of the server that the
last successful connect call was for. -/
def NamesTarget (r : ClientRun P) : Prop :=
  r.client.state ≠ .disconnected →
    ∃ l, r.client.listeners.head? = some l ∧ r.target = some l.serverAddr

omit [Rkyv P] in
/-- The target keeps its name while the listener at position 0 keeps its address. -/
theorem NamesTarget.of_front {r r' : ClientRun P} (h : NamesTarget r)
    (hstate : r.client.state ≠ .disconnected) (htarget : r'.target = r.target)
    (hfront : ∀ l, r.client.listeners.head? = some l →
      ∃ l', r'.client.listeners.head? = some l' ∧ l'.serverAddr = l.serverAddr) :
    NamesTarget r' := by
  intro _
  obtain ⟨l, hl, hname⟩ := h hstate
  obtain ⟨l', hl', haddr⟩ := hfront l hl
  exact ⟨l', hl', by rw [htarget, hname, haddr]⟩

/-- A client with a failing version query at the front, or the listener at the front keeps its
address. -/
theorem update_front_serverAddr {c : Client P} {handler : ClientHandler P} {incoming : Incoming}
    {env : Env} {u : ClientUpdate P} {l : ServerListener P} (hfront : c.listeners.head? = some l)
    (hstate : c.state ≠ .disconnected) (h : c.update handler incoming env = .ok u) :
    u.client.state = .disconnected ∨
      (∃ l', u.client.listeners.head? = some l' ∧ l'.serverAddr = l.serverAddr) ∨
      ∃ error, l.VersionQueryDue c.config env.now ∧
        env.answer env.attempts (l.serverAddr, []) = .failed error := by
  rcases Client.update_cases hfront hstate h with
    hdisconnected | ⟨l₁, env₁, l', hupdate, hl', hevolves, -⟩ | hfailed
  · exact Or.inl hdisconnected
  · refine Or.inr (Or.inl ⟨l', hl', hevolves.serverAddr.trans ?_⟩)
    rcases l.update_cases (some c.state) c.config env with
      ⟨l₂, env₂, hupdate', haddr, -⟩ | ⟨_, _, hupdate', -⟩ | ⟨_, _, hupdate', -⟩ <;>
    · rw [hupdate] at hupdate'
      cases hupdate'
      all_goals assumption
  · exact Or.inr (Or.inr hfailed)

/-- **Step lemma.**  A step that meets both conditions keeps the listener of the connection at
position 0. -/
theorem NamesTarget.step {r r' : ClientRun P} {op : ClientOp P} (h : NamesTarget r)
    (hconnect : ConnectsToFront r op) (hquery : QueriesFront r op)
    (hstep : r.step op = some r') : NamesTarget r' := by
  rcases step_cases hstep with ⟨hsteady, htarget, -⟩ | ⟨hdisconnected, -⟩ |
    ⟨index, l, l', hstarts⟩ | ⟨packetId, l, hstarts⟩ | ⟨env, rfl, rfl⟩ |
    ⟨handler, incoming, env, u, rfl, hupdate, rfl⟩
  · intro hne
    have hstate : r.client.state ≠ .disconnected := by
      rwa [← hsteady.state]
    refine h.of_front hstate htarget (fun l hl => ?_) hne
    obtain ⟨l', hl', hevolves⟩ := hsteady.front hstate l hl
    exact ⟨l', hl', hevolves.serverAddr⟩
  · intro hne
    exact absurd hdisconnected hne
  · -- the only step that names a new target
    intro _
    obtain ⟨connect, env, buffers, lastInteraction, packetId, buffers', env', rfl, hcompatible,
      hsend⟩ := hstarts.op_eq
    obtain rfl : index = 0 := hconnect hstarts.state index l buffers lastInteraction
      hstarts.position hcompatible ⟨packetId, buffers', env', hsend⟩
    obtain ⟨hget, -⟩ := Client.position_eq_some hstarts.position
    refine ⟨l', ?_, by rw [hstarts.target, hstarts.serverAddr]⟩
    rw [hstarts.client_eq]
    cases hlisteners : r.client.listeners with
    | nil =>
      rw [hlisteners] at hget
      cases hget
    | cons first rest => rfl
  · refine h.of_front (by rw [hstarts.state]; simp) hstarts.target (fun l hl => ?_)
    obtain ⟨l', hl', hevolves⟩ := hstarts.front l hl
    exact ⟨l', hl', hevolves.serverAddr⟩
  · intro hne
    suffices hnames : NamesTarget { r with client := (r.client.refreshAll env.start).2.1 } from
      hnames hne
    refine h.of_front hne rfl fun l hl => ?_
    have haddr := Client.refreshListeners_serverAddr r.client.listeners env.start
    have hhead := congrArg List.head? haddr
    rw [List.head?_map, List.head?_map, hl] at hhead
    exact Option.map_eq_some_iff.mp hhead
  · intro hne
    have hstate : r.client.state ≠ .disconnected := fun hdisconnected =>
      hne (Client.update_of_disconnected hdisconnected hupdate)
    obtain ⟨l, hl, hname⟩ := h hstate
    rcases update_front_serverAddr hl hstate hupdate with
      hdisconnected | ⟨l', hl', haddr⟩ | ⟨error, hdue, hanswer⟩
    · exact absurd hdisconnected hne
    · exact ⟨l', hl', by rw [hname, haddr]⟩
    · exact absurd hanswer (hquery hstate l hl hdue error)

/-! ## Runs -/

/-- **The connection slot names the right server.**  If in a run of a client connect packets are only
sent to the server at position 0, and no version query to that server fails in an update while there
is a connection, then unless the client is disconnected the listener at position 0 is the one of the
server given to the connect call that last succeeded, and `serverAddr` answers with that server. -/
theorem connection_slot {config : ClientConfig} {r : ClientRun P}
    (hrun : (system P).GuardedRun (fun r op => ConnectsToFront r op ∧ QueriesFront r op)
      (init config) r)
    (hstate : r.client.state ≠ .disconnected) :
    (∃ l, r.client.listeners.head? = some l ∧ r.target = some l.serverAddr) ∧
      r.client.serverAddr = .ok r.target := by
  have hinvariant : NamesTarget r :=
    hrun.invariant (fun s op t h hok hstep => h.step hok.1 hok.2 hstep) fun hne => absurd rfl hne
  obtain ⟨l, hl, hname⟩ := hinvariant hstate
  refine ⟨⟨l, hl, hname⟩, ?_⟩
  unfold Client.serverAddr
  cases hc : r.client.state with
  | disconnected => exact absurd hc hstate
  | connecting => simp [hl, hname]
  | connected => simp [hl, hname]
  | disconnecting => simp [hl, hname]

/-! ## Two runs -/

/-- A version reply without version information. -/
def versionReply : Bytes :=
  [PacketKind.version.toByte]

/-- An update of a client with default packets in which some datagrams arrive. -/
def updateWith (datagrams : List (SocketAddr × Bytes)) (env : Env) : ClientOp DefaultPackets :=
  .update (.default DefaultPackets) { datagrams } env

/-- Connect packets only go to position 0, and the version query of an update would not fail. -/
def checkFront {P : Packets} (r : ClientRun P) : ClientOp P → Bool
  | .connect (.ok serverAddr) _ _ =>
      (r.client.position serverAddr).all fun found => found.1 = 0
  | .update _ _ env =>
      r.client.listeners.head?.all fun l => env.answer [] (l.serverAddr, []) = .sent
  | _ => true

theorem checkFront_sound {P : Packets} [Rkyv P] {r : ClientRun P} {op : ClientOp P}
    (h : checkFront r op = true) : ConnectsToFront r op ∧ QueriesFront r op := by
  cases op with
  | connect peer connect env =>
    refine ⟨?_, trivial⟩
    cases peer with
    | error error => trivial
    | ok serverAddr =>
      intro _ index listener buffers lastInteraction hposition _ _
      simpa [checkFront, hposition] using h
  | update handler incoming env =>
    refine ⟨trivial, fun _ l hl _ error hanswer => ?_⟩
    simp [checkFront, hl, hanswer] at h
  | _ => exact ⟨trivial, trivial⟩

/-- A client that listens to two servers connects to the one at position 0. -/
theorem connection_slot_two_servers :
    ∃ r : ClientRun DefaultPackets,
      (system DefaultPackets).GuardedRun (fun r op => ConnectsToFront r op ∧ QueriesFront r op)
        (init .default) r ∧
      r.client.state = .connecting ∧ r.target = some 1 ∧
      r.client.listeners.map ServerListener.serverAddr = [1, 2] ∧
      ((∃ l, r.client.listeners.head? = some l ∧ r.target = some l.serverAddr) ∧
        r.client.serverAddr = .ok r.target) := by
  obtain ⟨r, hrun, hr⟩ := Lts.exists_guardedRun (system DefaultPackets)
    (fun r op => ConnectsToFront r op ∧ QueriesFront r op) checkFront (init .default)
    [.listen 1 (.accepting 0), .listen 2 (.accepting 0),
      updateWith [(2, versionReply), (1, versionReply)] (.accepting 1),
      .connect (.ok 1) () (.accepting 2)]
    (fun r => decide (r.client.state = .connecting ∧ r.target = some 1 ∧
      r.client.listeners.map ServerListener.serverAddr = [1, 2]))
    (fun r op _ => checkFront_sound) (by decide +kernel)
  obtain ⟨hstate, htarget, haddrs⟩ := of_decide_eq_true hr
  exact ⟨r, hrun, hstate, htarget, haddrs, connection_slot hrun (by rw [hstate]; simp)⟩

/-- A client that listens to server 1 and then to server 2 connects to server 2, and takes server 1
for the one it connects to. -/
theorem connection_slot_wrong :
    ∃ r : ClientRun DefaultPackets,
      (system DefaultPackets).GuardedRun (fun _ _ => True) (init .default) r ∧
      r.client.state = .connecting ∧ r.target = some 2 ∧ r.client.serverAddr = .ok (some 1) := by
  obtain ⟨r, hrun, hr⟩ := Lts.exists_guardedRun (system DefaultPackets)
    (fun _ _ => True) (fun _ _ => true) (init .default)
    [.listen 1 (.accepting 0), .listen 2 (.accepting 0),
      updateWith [(1, versionReply), (2, versionReply)] (.accepting 1),
      .connect (.ok 2) () (.accepting 2)]
    (fun r => decide (r.client.state = .connecting ∧ r.target = some 2 ∧
      r.client.serverAddr = .ok (some 1)))
    (fun _ _ _ _ => trivial) (by decide +kernel)
  obtain ⟨hstate, htarget, haddr⟩ := of_decide_eq_true hr
  exact ⟨r, hrun, hstate, htarget, haddr⟩

end ClientRun

end Ultinet
