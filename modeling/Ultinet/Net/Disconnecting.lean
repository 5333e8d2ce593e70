import Ultinet.Net.ClientPanics
import Ultinet.Net.ClientTimeout

/-!
# What it means to be disconnecting

A client is supposed to wait, while it is disconnecting, for the server to acknowledge that it has
disconnected.  But nothing relates the state of the connection to the disconnect packet after it was
put into the send buffer: the client never gets from disconnecting to disconnected because the packet
leaves the buffer.  `disconnecting_outstanding` says when the two agree nevertheless: as long as no
update finds the packet given up or finished, or the connection times out in that update.
-/

namespace Ultinet

variable {P : Packets}

/-- Updating a compatible listener keeps a packet that outlasts the update. -/
theorem ServerListener.update_outstanding {l l' : ServerListener P} {state state' : Option ClientState}
    {config : ClientConfig} {env env' : Env} {buffers : PacketBuffers} {lastInteraction : ℕ}
    {id : PacketId} {packet : PacketOut} (hl : l.state = .compatible buffers lastInteraction)
    (hget : buffers.sendBuffer.packets.get? id = some packet)
    (hlasts : packet.Outlasts id config.connection.resendDelay config.connection.maxMissedAcks
      l.serverAddr env)
    (h : l.update state config env = (some l', state', none, env')) : l'.outstanding id = true := by
  unfold ServerListener.update at h
  simp only [hl] at h
  rcases hupdate : buffers.update config.connection.resendDelay config.connection.maxMissedAcks
    config.connection.receiveTimeout l.serverAddr env with ⟨result, buffers', env''⟩
  rw [hupdate] at h
  cases result with
  | error error => cases h
  | ok _ =>
    cases h
    exact PacketBuffers.update_outstanding hget hlasts hupdate

namespace Client

variable [Rkyv P]

/-- A client that is disconnected may connect again: `connect` does not refuse to. -/
theorem connect_ne_notDisconnected {c c' : Client P} {peer : IoResult SocketAddr}
    {connect : P.Connect} {env env' : Env} {result : Except ConnectError PacketId}
    (hstate : c.state = .disconnected)
    (h : c.connect peer connect env = .ok (result, c', env')) :
    result ≠ .error .notDisconnected := by
  cases connect_outcome h with
  | notDisconnected peer hne => exact absurd hstate hne
  | refused _ serverAddr herror => exact fun heq => herror (Except.error.inj heq)
  | noPeer | failed | sends => simp

end Client

namespace ClientRun

variable [Rkyv P]

/-! ## The condition -/

/-- What an update of a client that is disconnecting tests of the disconnect packet: it has no more
missed acks than are allowed, and it has something left to send or its `Done` cannot be sent.  It may
fail these tests in an update in which the connected server times out.  A call of `refresh_all` does
not reset the compatibility of that server. -/
def KeepsDisconnect (r : ClientRun P) : ClientOp P → Prop
  | .update _ incoming env =>
      r.client.state = .disconnecting → ∀ l, r.client.listeners.head? = some l →
        l.TimesOut r.client.config.timeout incoming env.now ∨
        ∀ buffers lastInteraction id packet, l.state = .compatible buffers lastInteraction →
          r.disconnectId = some id → buffers.sendBuffer.packets.get? id = some packet →
          packet.Outlasts id r.client.config.connection.resendDelay
            r.client.config.connection.maxMissedAcks l.serverAddr env.start
  | .refreshAll env =>
      r.client.state = .disconnecting → ∀ l, r.client.listeners.head? = some l →
        ∃ error, env.answer [] (l.serverAddr, []) = .failed error
  | _ => True

/-! ## The invariant -/

/-- The packet of the last successful disconnect call is being sent to the server at position 0. -/
def Outstanding (r : ClientRun P) : Prop :=
  ∃ id l, r.disconnectId = some id ∧ r.client.listeners.head? = some l ∧ l.outstanding id = true

/-- While the client is disconnecting, its disconnect packet is being sent. -/
def DisconnectOutstanding (r : ClientRun P) : Prop :=
  r.client.state = .disconnecting → r.Outstanding

omit [Rkyv P] in
theorem exists_of_outstanding {l : ServerListener P} {id : PacketId}
    (h : l.outstanding id = true) :
    ∃ buffers lastInteraction packet, l.state = .compatible buffers lastInteraction ∧
      buffers.sendBuffer.packets.get? id = some packet := by
  unfold ServerListener.outstanding at h
  split at h
  · rename_i buffers lastInteraction hl
    obtain ⟨packet, hpacket⟩ := Option.isSome_iff_exists.mp h
    exact ⟨buffers, lastInteraction, packet, hl, hpacket⟩
  · cases h

/-- An update of a client that is disconnecting: its disconnect packet stays, or it is disconnected. -/
theorem update_disconnecting {r : ClientRun P} {handler : ClientHandler P} {incoming : Incoming}
    {env : Env} {u : ClientUpdate P} (hnodup : r.client.addrs.Nodup) (h : r.Outstanding)
    (hstate : r.client.state = .disconnecting)
    (hok : KeepsDisconnect r (.update handler incoming env))
    (hupdate : r.client.update handler incoming env.start = .ok u) :
    u.client.state = .disconnected ∨
      (u.client.state = .disconnecting ∧ Outstanding { r with client := u.client }) := by
  obtain ⟨id, l, hid, hl, houtstanding⟩ := h
  obtain ⟨buffers, lastInteraction, packet, hcompatible, hget⟩ := exists_of_outstanding houtstanding
  rcases hok hstate l hl with htimesOut | hlasts
  · have htimesOut' : l.TimesOut r.client.config.timeout incoming env.start.now := htimesOut
    exact Or.inl (Client.update_timesOut hnodup hl (by rw [hstate]; simp) htimesOut' hupdate)
  rcases Client.update_cases hl (by rw [hstate]; simp) hupdate with
    hdisconnected | ⟨l₁, env₁, l', hl₁, hl', hevolves, hcases⟩ | ⟨error, ⟨it, hpending, -⟩, -⟩
  · exact Or.inl hdisconnected
  · refine Or.inr ⟨?_, id, l', hid, hl', hevolves.outstanding id ?_⟩
    · rcases hcases with hsame | ⟨hconnecting, -⟩
      · exact hsame.trans hstate
      · rw [hstate] at hconnecting
        cases hconnecting
    · exact l.update_outstanding hcompatible hget
        (hlasts buffers lastInteraction id packet hcompatible hid hget) hl₁
  · rw [hcompatible] at hpending
    cases hpending

/-- **Step lemma.** -/
theorem DisconnectOutstanding.step {r r' : ClientRun P} {op : ClientOp P}
    (hnodup : r.client.addrs.Nodup) (h : DisconnectOutstanding r) (hok : KeepsDisconnect r op)
    (hstep : r.step op = some r') :
    DisconnectOutstanding r' := by
  rcases step_cases hstep with ⟨hsteady, -, hsame⟩ | ⟨hdisconnected, -⟩ | ⟨index, l, l', hstarts⟩ |
    ⟨packetId, l, hstarts⟩ | ⟨env, rfl, rfl⟩ | ⟨handler, incoming, env, u, rfl, hupdate, rfl⟩
  · intro hstate
    have hstate' : r.client.state = .disconnecting := hsteady.state ▸ hstate
    obtain ⟨id, l, hid, hl, houtstanding⟩ := h hstate'
    obtain ⟨l', hl', hevolves⟩ := hsteady.front (by rw [hstate']; simp) l hl
    exact ⟨id, l', hsame.trans hid, hl', hevolves.outstanding id houtstanding⟩
  · intro hstate
    rw [hdisconnected] at hstate
    cases hstate
  · intro hstate
    rw [hstarts.client_eq] at hstate
    cases hstate
  · intro _
    exact ⟨packetId, l, hstarts.disconnectId, hstarts.head, hstarts.outstanding⟩
  · intro hstate
    obtain ⟨id, l, hid, hl, houtstanding⟩ := h hstate
    obtain ⟨error, hanswer⟩ := hok hstate l hl
    refine ⟨id, l, hid, ?_, houtstanding⟩
    change (Client.refreshListeners r.client.listeners env.start).2.1.head? = some l
    cases hlisteners : r.client.listeners with
    | nil =>
      rw [hlisteners] at hl
      cases hl
    | cons first rest =>
      rw [hlisteners] at hl
      cases hl
      -- the query to the connected server fails, so nothing was refreshed
      rw [Client.refreshListeners_of_failed rest env.start hanswer]
      rfl
  · intro hstate
    have hstate' : r.client.state = .disconnecting := by
      rcases Client.update_state hupdate with hsame | hdisconnected | ⟨-, hconnected⟩
      · exact hsame.symm.trans hstate
      · rw [hdisconnected] at hstate
        cases hstate
      · rw [hconnected] at hstate
        cases hstate
    rcases update_disconnecting hnodup (h hstate') hstate' hok hupdate with
      hdisconnected | ⟨-, hout⟩
    · rw [hdisconnected] at hstate
      cases hstate
    · exact hout

/-! ## Runs -/

/-- **Disconnecting means that a disconnect is outstanding.**  If in a run of a client every update that
finds the client disconnecting also finds that the disconnect packet is neither given up nor finished,
or that the connected server times out, and if no refresh drops the buffers of that server while the
client is disconnecting, then whenever the client is disconnecting the packet of the last successful
disconnect call is being sent to the server at position 0.  In particular it is after every update; and
when an update finds the client disconnecting and leaves that packet not being sent, then the client is
disconnected and may connect again. -/
theorem disconnecting_outstanding {config : ClientConfig} {r : ClientRun P}
    (hrun : (system P).GuardedRun KeepsDisconnect (init config) r) :
    (r.client.state = .disconnecting → r.Outstanding) ∧
      ∀ handler incoming env r', KeepsDisconnect r (.update handler incoming env) →
        r.step (.update handler incoming env) = some r' → r.client.state = .disconnecting →
        ¬r'.Outstanding →
        r'.client.state = .disconnected ∧
          ∀ peer connect env' result c' env'',
            r'.client.connect peer connect env' = .ok (result, c', env'') →
            result ≠ .error .notDisconnected := by
  obtain ⟨hnodup, hinvariant⟩ : r.client.addrs.Nodup ∧ DisconnectOutstanding r :=
    hrun.invariant (I := fun r : ClientRun P => r.client.addrs.Nodup ∧ DisconnectOutstanding r)
      (fun s op t h hok hstep => ⟨addrs_nodup_step h.1 hstep, h.2.step h.1 hok hstep⟩)
      ⟨List.nodup_nil, fun hstate => by cases hstate⟩
  refine ⟨hinvariant, fun handler incoming env r' hok hstep hstate hgone => ?_⟩
  have hdisconnected : r'.client.state = .disconnected := by
    obtain ⟨u, hupdate, rfl⟩ := step_update hstep
    rcases update_disconnecting hnodup (hinvariant hstate) hstate hok hupdate with hdone | ⟨-, hout⟩
    · exact hdone
    · exact absurd hout hgone
  refine ⟨hdisconnected, fun peer connect env' result c' env'' hconnect => ?_⟩
  exact Client.connect_ne_notDisconnected hdisconnected hconnect

/-! ## Two runs -/

/-- Nothing is refreshed, and no packet is due or was resent too often in an update. -/
def checkNothingDue {P : Packets} (r : ClientRun P) : ClientOp P → Bool
  | .refreshAll _ => false
  | .update _ _ env =>
      r.client.listeners.head?.all fun l =>
        match l.state with
        | .compatible buffers _ =>
            buffers.sendBuffer.packets.entries.all fun (_, packet) =>
              packet.missedAcks = 0 && packet.lastSend.any fun lastSend =>
                elapsed env.now lastSend < r.client.config.connection.resendDelay
        | _ => true
  | _ => true

theorem checkNothingDue_sound {P : Packets} [Rkyv P] {r : ClientRun P} {op : ClientOp P}
    (h : checkNothingDue r op = true) : KeepsDisconnect r op := by
  cases op with
  | refreshAll env => cases h
  | update handler incoming env =>
    refine fun _ l hl => Or.inr fun buffers lastInteraction id packet hcompatible _ hget => ?_
    simp only [checkNothingDue, hl, Option.all_some, hcompatible] at h
    have hpacket := List.all_eq_true.mp h _ (SortedMap.mem_entries_of_get? hget)
    obtain ⟨hmissed, hlast⟩ := Bool.and_eq_true_iff.mp hpacket
    obtain ⟨lastSend, hsome, hdue⟩ := (Option.any_eq_true _ _).mp hlast
    refine ⟨fun m _ => ?_, Or.inl ⟨lastSend, hsome, Or.inl (of_decide_eq_true hdue)⟩⟩
    rw [of_decide_eq_true hmissed]
    exact Nat.zero_le m
  | _ => trivial

/-- How a client with default packets connects to server 1, is accepted and disconnects. -/
def connectAndDisconnect : List (ClientOp DefaultPackets) :=
  [.listen 1 (.accepting 0), updateWith [(1, versionReply)] (.accepting 1),
    .connect (.ok 1) () (.accepting 2), updateWith [(1, acceptPart)] (.accepting 3),
    .disconnect () (.accepting 4 8)]

/-- Right after a disconnect call the disconnect packet is being sent. -/
theorem disconnecting_outstanding_at_once :
    ∃ r : ClientRun DefaultPackets,
      (system DefaultPackets).GuardedRun KeepsDisconnect (init .default) r ∧
      r.client.state = .disconnecting ∧
      ((r.client.state = .disconnecting → r.Outstanding) ∧
        ∀ handler incoming env r', KeepsDisconnect r (.update handler incoming env) →
          r.step (.update handler incoming env) = some r' → r.client.state = .disconnecting →
          ¬r'.Outstanding →
          r'.client.state = .disconnected ∧
            ∀ peer connect env' result c' env'',
              r'.client.connect peer connect env' = .ok (result, c', env'') →
              result ≠ .error .notDisconnected) := by
  obtain ⟨r, hrun, hr⟩ := Lts.exists_guardedRun (system DefaultPackets)
    KeepsDisconnect checkNothingDue (init .default)
    (connectAndDisconnect ++ [updateWith [] (.accepting 5)])
    (fun r => decide (r.client.state = .disconnecting))
    (fun r op _ => checkNothingDue_sound) (by decide +kernel)
  exact ⟨r, hrun, of_decide_eq_true hr, disconnecting_outstanding hrun⟩

/-- The server acks the disconnect packet, the client sends the `Done` for it, and the packet is gone;
but the client is disconnecting still, and must not connect. -/
theorem disconnecting_forever :
    ∃ r : ClientRun DefaultPackets,
      (system DefaultPackets).GuardedRun (fun _ _ => True) (init .default) r ∧
      r.client.state = .disconnecting ∧ r.disconnectId = some (.replicate 8) ∧
      (∀ l, r.client.listeners.head? = some l → l.outstanding (.replicate 8) = false) ∧
      (r.client.connect (.ok 1) () (.accepting 2001)).map Prod.fst =
        .ok (.error .notDisconnected) := by
  obtain ⟨r, hrun, hr⟩ := Lts.exists_guardedRun (system DefaultPackets)
    (fun _ _ => True) (fun _ _ => true) (init .default)
    (connectAndDisconnect ++
      [updateWith [(1, ackDatagram (.replicate 8) 0)] (.accepting 5),
        updateWith [] (.accepting 2000)])
    (fun r => decide (r.client.state = .disconnecting ∧ r.disconnectId = some (.replicate 8) ∧
      (r.client.connect (.ok 1) () (.accepting 2001)).map Prod.fst =
        .ok (.error .notDisconnected)) &&
      r.client.listeners.head?.all fun l => l.outstanding (.replicate 8) = false)
    (fun _ _ _ _ => trivial) (by decide +kernel)
  obtain ⟨hdecide, hgone⟩ := Bool.and_eq_true_iff.mp hr
  obtain ⟨hstate, hid, hrefused⟩ := of_decide_eq_true hdecide
  refine ⟨r, hrun, hstate, hid, fun l hl => ?_, hrefused⟩
  rw [hl] at hgone
  exact of_decide_eq_true hgone

end ClientRun

end Ultinet
