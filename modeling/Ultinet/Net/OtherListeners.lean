import Ultinet.Net.ClientPanics

/-!
# Servers the client only listens to

All listeners go through the same passes: the pass that sends pending packets, the dispatch of
datagrams and the timeout pass.  What concerns a server other than the connected one leaves the
connection alone, except that the timeout pass ends the connection whenever *any* server was silent
for too long.  `undisturbed_iff` says that there is no other exception.
-/

namespace Ultinet

variable {P : Packets}

/-! ## Events -/

/-- What can happen to a client that may concern other servers than the connected one. -/
inductive ListenerEvent (P : Packets)
  /-- A datagram arrives, which may decide about compatibility. -/
  | datagram (handler : ClientHandler P) (serverAddr : SocketAddr) (buf : Bytes)
  /-- Pending packets and version queries are sent again, which may fail. -/
  | listenerPass
  /-- Servers that were silent for too long are dropped. -/
  | timeoutPass
  /-- A server is forgotten. -/
  | forget (serverAddr : SocketAddr)

namespace ListenerEvent

variable [Rkyv P]

/-- Let an event happen. -/
def apply (u : ClientUpdate P) : ListenerEvent P → Exec (ClientUpdate P)
  | .datagram handler serverAddr buf => u.handleDatagram handler serverAddr buf
  | .listenerPass => .ok u.updateListeners
  | .timeoutPass => .ok u.timeoutConnection
  | .forget serverAddr => .ok { u with client := (u.client.forget serverAddr).2 }

end ListenerEvent

namespace ClientUpdate

/-- The event does not concern the server of a listener: it is about another address, or it is a pass
in which the server does not time out. -/
def Elsewhere (u : ClientUpdate P) (l : ServerListener P) : ListenerEvent P → Prop
  | .datagram _ serverAddr _ | .forget serverAddr => serverAddr ≠ l.serverAddr
  | .listenerPass => True
  | .timeoutPass => idle u.client.config.timeout u.env.now l = false

/-- The client as if it listened to a single server. -/
def alone (u : ClientUpdate P) (l : ServerListener P) : ClientUpdate P :=
  { u with client := { u.client with listeners := [l] } }

/-- An event leaves the state of the connection and the listener at position 0 alone.  The pass over
the listeners treats them as if there were no other listeners. -/
def Undisturbed (u : ClientUpdate P) (l : ServerListener P) (u' : ClientUpdate P) :
    ListenerEvent P → Prop
  | .listenerPass =>
      u'.client.state = (u.alone l).updateListeners.client.state ∧
        ∃ rest, u'.client.listeners = (u.alone l).updateListeners.client.listeners ++ rest
  | .datagram _ _ _ | .timeoutPass | .forget _ =>
      u'.client.state = u.client.state ∧ u'.client.listeners.head? = some l

/-- Some other server was silent for longer than the timeout. -/
def OtherTimesOut (u : ClientUpdate P) (others : List (ServerListener P)) :
    ListenerEvent P → Prop
  | .timeoutPass => ∃ other ∈ others, idle u.client.config.timeout u.env.now other = true
  | .datagram _ _ _ | .listenerPass | .forget _ => False

/-! ## What the events do -/

variable {u : ClientUpdate P} {l : ServerListener P} {others : List (ServerListener P)}

/-- The pass over the listeners does not look at the others for the connection. -/
theorem undisturbed_listenerPass (hlisteners : u.client.listeners = l :: others)
    (hstate : u.client.state ≠ .disconnected) :
    u.Undisturbed l u.updateListeners .listenerPass := by
  rcases hupdate : l.update (some u.client.state) u.client.config u.env with
    ⟨kept, state, error, env⟩
  obtain ⟨hall, rest, hkept⟩ := updateListeners_cons hlisteners hstate hupdate
  obtain ⟨halone, rest', hkept'⟩ := updateListeners_cons (u := u.alone l) rfl hstate hupdate
  have hrest' : rest' = [] := by
    -- there are no other listeners to pass over
    have hlast : (u.alone l).updateListeners.client.listeners = kept.toList := by
      unfold updateListeners
      simp [alone, Vec.retainMut_cons, visitListener, hstate, hupdate]
    rw [hlast] at hkept'
    exact List.self_eq_append_right.mp hkept'
  refine ⟨hall.trans halone.symm, rest, ?_⟩
  rw [hkept, hkept', hrest', List.append_nil]

/-- The timeout pass leaves the connection alone unless another server times out. -/
theorem undisturbed_timeoutPass_iff (hlisteners : u.client.listeners = l :: others)
    (hstate : u.client.state ≠ .disconnected)
    (hl : idle u.client.config.timeout u.env.now l = false) :
    u.Undisturbed l u.timeoutConnection .timeoutPass ↔
      ¬u.OtherTimesOut others .timeoutPass := by
  obtain ⟨hkept, hend⟩ := u.timeoutConnection_eq
  rw [hlisteners] at hkept hend
  constructor
  · rintro ⟨hsame, -⟩ ⟨other, hmem, hidle⟩
    have hany : (l :: others).any (idle u.client.config.timeout u.env.now) = true :=
      List.any_eq_true.mpr ⟨other, List.mem_cons_of_mem l hmem, hidle⟩
    rw [hany, if_pos rfl] at hend
    exact hstate (hsame.symm.trans hend)
  · intro hnone
    have hany : (l :: others).any (idle u.client.config.timeout u.env.now) = false := by
      rw [List.any_cons, hl, Bool.false_or, List.any_eq_false]
      exact fun other hmem hidle => hnone ⟨other, hmem, hidle⟩
    refine ⟨by rw [hend, hany]; rfl, ?_⟩
    rw [hkept]
    simp [hl]

section Receive

variable [Rkyv P]

/-- **What concerns other servers leaves the connection alone.**  Take any client with a connection,
and let anything happen that does not concern the connected server.  It leaves the state of the
connection and the listener of the connected server alone, if and only if it is not a timeout pass in
which another server was silent for too long. -/
theorem undisturbed_iff {u' : ClientUpdate P} {event : ListenerEvent P}
    (hlisteners : u.client.listeners = l :: others) (hstate : u.client.state ≠ .disconnected)
    (helsewhere : u.Elsewhere l event) (happly : event.apply u = .ok u') :
    u.Undisturbed l u' event ↔ ¬u.OtherTimesOut others event := by
  have hhead : u.client.listeners.head? = some l := by
    rw [hlisteners]
    rfl
  cases event with
  | datagram handler serverAddr buf =>
    obtain ⟨-, -, hframe⟩ := handleDatagram_cases happly
    exact iff_of_true (hframe l hhead (Ne.symm helsewhere)) not_false
  | listenerPass =>
    cases happly
    exact iff_of_true (undisturbed_listenerPass hlisteners hstate) not_false
  | timeoutPass =>
    cases happly
    exact undisturbed_timeoutPass_iff hlisteners hstate helsewhere
  | forget serverAddr =>
    cases happly
    exact iff_of_true ⟨u.client.forget_state serverAddr,
      Client.forget_head hstate hhead serverAddr⟩ not_false

/-- A version reply of another server leaves the connection alone. -/
theorem undisturbed_versionReply :
    let l : ServerListener DefaultPackets := ⟨1, .compatible (.new .min) 0⟩
    let other : ServerListener DefaultPackets := ⟨2, .pendingVersion (some 0)⟩
    let u : ClientUpdate DefaultPackets :=
      { client := { config := .default, state := .connected, listeners := [l, other] }
        env := .accepting 1
        events := [] }
    let event : ListenerEvent DefaultPackets :=
      .datagram (.default DefaultPackets) 2 ClientRun.versionReply
    ∃ u', event.apply u = .ok u' ∧
      (u.Undisturbed l u' event ↔ ¬u.OtherTimesOut [other] event) := by
  intro l other u event
  obtain ⟨u', happly⟩ : ∃ u', event.apply u = .ok u' := ⟨_, rfl⟩
  refine ⟨u', happly, undisturbed_iff rfl ?_ ?_ happly⟩
  · decide
  · change (2 : ℕ) ≠ 1
    decide

end Receive

end ClientUpdate

/-! ## A run -/

namespace ClientRun

/-- The client is connected to the first of two servers, which is not idle at a given time, but the
timeout pass ends the connection then. -/
def checkTimedOut (now : ℕ) (r : ClientRun DefaultPackets) : Bool :=
  match r.client.listeners with
  | [l, _] => decide (r.client.state = .connected ∧ r.target = some l.serverAddr ∧
      ClientUpdate.idle r.client.config.timeout now l = false ∧
      (ClientUpdate.timeoutConnection ⟨r.client, .accepting now, []⟩).client.state = .disconnected)
  | _ => false

/-- The client is connected to server 1, which was just active, and listens to server 2, which was
not.  Then the timeout pass ends the connection. -/
theorem undisturbed_wrong :
    ∃ (r : ClientRun DefaultPackets) (l other : ServerListener DefaultPackets),
      (system DefaultPackets).GuardedRun (fun _ _ => True) (init .default) r ∧
      r.client.state = .connected ∧ r.client.listeners = [l, other] ∧ r.target = some l.serverAddr ∧
      ClientUpdate.Elsewhere ⟨r.client, .accepting 10500, []⟩ l .timeoutPass ∧
      (ClientUpdate.timeoutConnection ⟨r.client, .accepting 10500, []⟩).client.state =
        .disconnected := by
  obtain ⟨r, hrun, hr⟩ := Lts.exists_guardedRun (system DefaultPackets)
    (fun _ _ => True) (fun _ _ => true) (init .default)
    [.listen 1 (.accepting 0), .listen 2 (.accepting 0),
      updateWith [(1, versionReply), (2, versionReply)] (.accepting 1),
      .connect (.ok 1) () (.accepting 2), updateWith [(1, acceptPart)] (.accepting 3),
      updateWith [(1, [PacketKind.ping.toByte])] (.accepting 9000)]
    (checkTimedOut 10500) (fun _ _ _ _ => trivial) (by decide +kernel)
  unfold checkTimedOut at hr
  split at hr
  · rename_i l other hlisteners
    obtain ⟨hstate, htarget, hidle, hend⟩ := of_decide_eq_true hr
    exact ⟨r, l, other, hrun, hstate, hlisteners, htarget, hidle, hend⟩
  · cases hr

end ClientRun

end Ultinet
