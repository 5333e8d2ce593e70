import Ultinet.Net.Exchange
import Ultinet.Net.HonestClient
import Ultinet.Net.OtherClients
import Ultinet.Net.ServerResend

/-!
# A server that hears an honest client

What a server does with one honest client, when packets have a single part and the socket reports no
errors: every call, every pass of an update and every datagram is a move of the server, which leaves
sound buffers behind and sends honest datagrams only (`Server.Does`).  What the server does for its
other clients does not matter.
-/

namespace Ultinet

variable {P : Packets}

/-- Whatever a handler answers to a client has a single part. -/
structure ServerHandler.SinglePart [Rkyv P] (handler : ServerHandler P) (clientAddr : SocketAddr) :
    Prop where
  status : ∀ events query, chunkCount (Rkyv.serializeServer
    (.status (handler.query events clientAddr query) : ServerConnectionPacket P)).flatten = 1
  accept : ∀ events connect accept, handler.connect events clientAddr connect = .accept accept →
    chunkCount (Rkyv.serializeServer (.accept accept : ServerConnectionPacket P)).flatten = 1
  reject : ∀ events connect reject, handler.connect events clientAddr connect = .reject reject →
    chunkCount (Rkyv.serializeServer (.reject reject : ServerConnectionPacket P)).flatten = 1

namespace Server

/-- The buffers for a client are sound, and there is only one place for them. -/
structure SoundFor (s : Server) (clientAddr : SocketAddr) (issued : List Issued) : Prop where
  unique : s.UniqueAddrs
  client : ∀ (i : ℕ) (c : ClientConnection), s.clients[i]? = some (some c) →
    c.clientAddr = clientAddr → Sound issued c.buffers
  listener : ∀ buffers, s.listeners.get? clientAddr = some buffers → Sound issued buffers

/-- The server makes a move in a call. -/
def Does [Rkyv P] (clientAddr : SocketAddr) (before : List Issued) (s : Server) (env : Env)
    (received : Option Issued) (s' : Server) (env' : Env) : Prop :=
  ∃ issued, ServerMove P (s.findClient clientAddr).isSome received
      (s'.findClient clientAddr).isSome issued ∧
    (∀ packet ∈ issued, chunkCount packet.2 = 1) ∧
    s'.SoundFor clientAddr (before ++ issued) ∧
    env.Tells clientAddr (Honest (before ++ issued)) env'

variable {s s' s'' : Server} {clientAddr : SocketAddr} {before : List Issued} {env env' env'' : Env}

theorem SoundFor.mono {before' : List Issued} (hs : s.SoundFor clientAddr before)
    (hsub : before ⊆ before') : s.SoundFor clientAddr before' where
  unique := hs.unique
  client i c hget haddr := (hs.client i c hget haddr).mono hsub
  listener buffers hget := (hs.listener buffers hget).mono hsub

theorem SoundFor.of_sameEntry (hs : s.SoundFor clientAddr before) (hs' : s'.UniqueAddrs)
    (hsame : s.SameEntry clientAddr s') : s'.SoundFor clientAddr before where
  unique := hs'
  client i c hget haddr := by
    subst haddr
    have hfind := findClient_of_slot hs' hget
    rw [hsame.2] at hfind
    obtain ⟨hget', haddr'⟩ := findClient_eq_some hfind
    exact hs.client i c hget' haddr'
  listener buffers hget := by
    rw [hsame.1] at hget
    exact hs.listener buffers hget

/-- The buffers of a client that stays connected. -/
theorem SoundFor.setClient {before' : List Issued} {index : ℕ} {c c' : ClientConnection}
    (hs : s.SoundFor clientAddr before) (hsub : before ⊆ before')
    (hget : s.clients[index]? = some (some c)) (hc : c.clientAddr = clientAddr)
    (haddr : c'.clientAddr = clientAddr) (hsound : Sound before' c'.buffers) :
    (s.setClient index (some c')).SoundFor clientAddr before' where
  unique := (Shrinks.setClient hget (haddr.trans hc.symm)).uniqueAddrs hs.unique
  client i d hi hd := by
    rw [getElem?_setClient _ (List.getElem?_eq_some_iff.mp hget).1] at hi
    split_ifs at hi with hindex
    · cases hi
      exact hsound
    · exact (hs.client i d hi hd).mono hsub
  listener buffers hlistener := (hs.listener buffers hlistener).mono hsub

/-- A client that stays connected has a slot. -/
theorem isSome_setClient {index : ℕ} {c : ClientConnection} (c' : ClientConnection)
    (hget : s.clients[index]? = some (some c)) (haddr : c'.clientAddr = clientAddr) :
    ((s.setClient index (some c')).findClient clientAddr).isSome = true := by
  rw [isSome_findClient]
  refine ⟨index, c', ?_, haddr⟩
  rw [getElem?_setClient _ (List.getElem?_eq_some_iff.mp hget).1, if_pos rfl]

/-- A client that is disconnected has no slot any more. -/
theorem SoundFor.disconnectClient {index : ℕ} {c : ClientConnection}
    (hs : s.SoundFor clientAddr before) (hget : s.clients[index]? = some (some c))
    (hc : c.clientAddr = clientAddr) :
    (s.disconnectClient index c).SoundFor clientAddr before ∧
      (s.disconnectClient index c).findClient clientAddr = none := by
  have hslot : ∀ (i : ℕ) (d : ClientConnection),
      (s.disconnectClient index c).clients[i]? = some (some d) → d.clientAddr ≠ clientAddr := by
    intro i d hi hd
    have hi' : (s.setClient index none).clients[i]? = some (some d) := hi
    rw [getElem?_setClient _ (List.getElem?_eq_some_iff.mp hget).1] at hi'
    split_ifs at hi' with hindex
    · cases hi'
    · exact hindex (hs.unique.slots i index d c hi' hget (hd.trans hc.symm))
  refine ⟨⟨(Shrinks.disconnectClient hs.unique hget rfl).uniqueAddrs hs.unique,
    fun i d hi hd => absurd hd (hslot i d hi), fun buffers hlistener => ?_⟩,
    findClient_eq_none.mpr hslot⟩
  have hlistener' : (s.listeners.insert c.clientAddr c.buffers).get? clientAddr = some buffers :=
    hlistener
  rw [SortedMap.get?_insert, if_pos hc.symm] at hlistener'
  cases hlistener'
  exact hs.client index c hget hc

/-- The buffers of a client that is not connected. -/
theorem SoundFor.insert {before' : List Issued} {buffers : PacketBuffers}
    (hs : s.SoundFor clientAddr before) (hsub : before ⊆ before')
    (hnone : s.findClient clientAddr = none) (hsound : Sound before' buffers) :
    SoundFor { s with listeners := s.listeners.insert clientAddr buffers } clientAddr before' where
  unique := by
    have hshrinks : s.Shrinks { s with listeners := s.listeners.insert clientAddr buffers } := by
      refine .of_clients rfl fun a ha => ?_
      dsimp only at ha
      rw [SortedMap.get?_insert] at ha
      split_ifs at ha with heq
      · rw [heq]
        exact Or.inr hnone
      · exact Or.inl ha
    exact hshrinks.uniqueAddrs hs.unique
  client i c hget hc := (hs.client i c hget hc).mono hsub
  listener b hget := by
    dsimp only at hget
    rw [SortedMap.get?_insert, if_pos rfl] at hget
    cases hget
    exact hsound

/-- A client that is accepted gets a slot, and is no longer listened to. -/
theorem SoundFor.addClient {before' : List Issued} {buffers : PacketBuffers}
    (listeners : SortedMap SocketAddr PacketBuffers) (hs : s.SoundFor clientAddr before)
    (hnone : s.findClient clientAddr = none) (hsound : Sound before' buffers)
    (hlisteners : ∀ a, listeners.get? a = if a = clientAddr then none else s.listeners.get? a) :
    (Server.addClient { s with listeners } (.new clientAddr buffers)).SoundFor clientAddr before' ∧
      ((Server.addClient { s with listeners } (.new clientAddr buffers)).findClient
        clientAddr).isSome = true := by
  obtain ⟨index, hfree, hslots, hkept, -⟩ :=
    Server.addClient_spec { s with listeners } (.new clientAddr buffers)
  have hadds : s.Adds clientAddr (Server.addClient { s with listeners } (.new clientAddr buffers)) :=
    ⟨hnone, ⟨index, _, rfl, hfree, hslots⟩, fun a => by rw [hkept, hlisteners]⟩
  refine ⟨⟨hadds.uniqueAddrs hs.unique, fun i c hi hc => ?_, fun b hget => ?_⟩, ?_⟩
  · rw [hslots] at hi
    split_ifs at hi with hindex
    · cases hi
      exact hsound
    · exact absurd hc (findClient_eq_none.mp hnone i c hi)
  · rw [hadds.listeners, if_pos rfl] at hget
    cases hget
  · rw [isSome_findClient]
    exact ⟨index, _, by rw [hslots, if_pos rfl], rfl⟩

section Does

variable [Rkyv P]

/-- A move that issues nothing. -/
theorem Does.of_move {received : Option Issued}
    (hmove : ServerMove P (s.findClient clientAddr).isSome received
      (s'.findClient clientAddr).isSome [])
    (hs' : s'.SoundFor clientAddr before) (htells : env.Tells clientAddr (Honest before) env') :
    Does (P := P) clientAddr before s env received s' env' :=
  ⟨[], hmove, by simp, by simpa using hs', by simpa using htells⟩

/-- A call that issues nothing and changes no slot. -/
theorem Does.of_member (hmember : (s'.findClient clientAddr).isSome = (s.findClient clientAddr).isSome)
    (hs' : s'.SoundFor clientAddr before) (htells : env.Tells clientAddr (Honest before) env') :
    Does (P := P) clientAddr before s env none s' env' := by
  refine .of_move ?_ hs' htells
  rw [hmember]
  exact .issue _ _ (by simp [Unrelated])

/-- A call that does something for another client. -/
theorem Does.of_sameEntry (hs : s.SoundFor clientAddr before) (hs' : s'.UniqueAddrs)
    (hsame : s.SameEntry clientAddr s') (htells : env.Tells clientAddr (Honest before) env') :
    Does (P := P) clientAddr before s env none s' env' :=
  .of_member (by rw [hsame.2]) (hs.of_sameEntry hs' hsame) htells

/-- A move may follow something that is no move. -/
theorem Does.after {received : Option Issued}
    (hmember : (s'.findClient clientAddr).isSome = (s.findClient clientAddr).isSome)
    (htells : env.Tells clientAddr (Honest before) env')
    (h : Does (P := P) clientAddr before s' env' received s'' env'') :
    Does (P := P) clientAddr before s env received s'' env'' := by
  obtain ⟨issued, hmove, hone, hsound, htells'⟩ := h
  rw [hmember] at hmove
  exact ⟨issued, hmove, hone, hsound,
    (htells.mono fun buf hbuf => hbuf.mono (List.subset_append_left _ _)).trans htells'⟩

/-! ### The operations -/

/-- Listening to fewer clients. -/
theorem Does.of_listeners {listeners : SortedMap SocketAddr PacketBuffers}
    (hs : s.SoundFor clientAddr before)
    (hsub : ∀ a buffers, listeners.get? a = some buffers → s.listeners.get? a = some buffers) :
    Does (P := P) clientAddr before s env none { s with listeners } env := by
  have hshrinks : s.Shrinks { s with listeners } := by
    refine .of_clients rfl fun a ha => Or.inl ?_
    obtain ⟨buffers, hget⟩ := Option.isSome_iff_exists.mp ha
    rw [hsub a buffers hget]
    rfl
  refine .of_member rfl ⟨hshrinks.uniqueAddrs hs.unique, hs.client, fun buffers hget => ?_⟩
    (.refl env)
  exact hs.listener buffers (hsub clientAddr buffers hget)

theorem unlisten_does (hs : s.SoundFor clientAddr before) (addr : SocketAddr) :
    Does (P := P) clientAddr before s env none (s.unlisten addr).2 env := by
  unfold unlisten
  split_ifs with hlistener hclient
  · refine .of_listeners hs fun a buffers hget => ?_
    rw [SortedMap.get?_erase] at hget
    split_ifs at hget with ha
    exact hget
  · exact .of_listeners hs fun a buffers hget => hget
  · exact .of_listeners hs fun a buffers hget => hget

theorem unlistenAll_does (hs : s.SoundFor clientAddr before) :
    Does (P := P) clientAddr before s env none s.unlistenAll env :=
  .of_listeners hs fun a buffers hget => by cases hget

/-- Sending a user-defined packet, to this client or another one. -/
theorem send_does [LawfulRkyv P] {addr : SocketAddr} {packet : P.Server}
    {result : Option (IoResult PacketId)} (hs : s.SoundFor clientAddr before) (hno : env.NoError)
    (hone : addr = clientAddr →
      chunkCount (Rkyv.serializeServer (.user packet : ServerConnectionPacket P)).flatten = 1)
    (h : s.send addr packet env = .ok (result, s', env')) :
    Does (P := P) clientAddr before s env none s' env' := by
  by_cases haddr : addr = clientAddr
  · subst haddr
    unfold send at h
    split at h
    · cases h
      exact .of_member rfl hs (.refl env)
    · rename_i index client hfind
      obtain ⟨hget, hc⟩ := findClient_eq_some hfind
      cases hsend : client.buffers.send (Rkyv.serializeServer (.user packet))
          s.config.connection.backgroundSerializationThreshold addr env with
      | error abort => simp [hsend, bind, Except.bind] at h
      | ok sent =>
        obtain ⟨sent, buffers, env''⟩ := sent
        obtain ⟨id, bufs, rfl, hsends, hbufs, hsound⟩ :=
          (hs.client index client hget hc).send_spec (hone rfl) hno hsend
        simp only [hsend, bind, Except.bind, pure, Except.pure] at h
        cases h
        refine ⟨[(id, (Rkyv.serializeServer (.user packet : ServerConnectionPacket P)).flatten)],
          ?_, by simpa using hone rfl, ?_, .of_sends hsends fun buf hbuf => ?_⟩
        · rw [isSome_setClient { client with buffers } hget hc, hfind]
          refine .issue _ _ ?_
          simp [Unrelated, accepts, rejects, kicks, readsServer, LawfulRkyv.checkServer_serialize,
            ServerConnectionPacket.isAccept, ServerConnectionPacket.isReject,
            ServerConnectionPacket.isKick]
        · exact hs.setClient (List.subset_append_left _ _) hget hc hc hsound
        · rw [hbufs buf hbuf]
          exact .part _ (by simp)
  · have hunique : s'.UniqueAddrs := by
      rcases ServerRun.send_shrinks h with rfl | ⟨index, client, buffers, hfind, -, rfl⟩
      · exact hs.unique
      · have hshrinks : s.Shrinks (s.setClient index (some { client with buffers })) :=
          .setClient (findClient_eq_some hfind).1 rfl
        exact hshrinks.uniqueAddrs hs.unique
    obtain ⟨hsame, htells⟩ := send_other (H := Honest before) hunique haddr h
    exact .of_sameEntry hs hunique hsame htells

end Does

end Server

/-! ## The passes over the slots -/

/-- A client is dropped by the next pass that pings: a ping is due, the last one was not answered, and
neither were the ones before. -/
def ClientConnection.timesOut (c : ClientConnection) (config : ServerConfig) (now : ℕ) : Bool :=
  c.activePing.any (fun activePing => decide (config.pingDelay ≤ elapsed now activePing.ping)) &&
    c.lastPong.isNone && config.maxMissedPongs.any fun max => decide (max < c.missedPongs + 1)

namespace ServerUpdate

open Server

variable {clientAddr : SocketAddr} {before : List Issued}

/-- A pass that keeps the client in its slot, with sound buffers. -/
theorem does_of_slots [Rkyv P] {s s' : Server} {env env' : Env} (hs : s.SoundFor clientAddr before)
    (hs' : s'.UniqueAddrs)
    (hkept : ∀ (i : ℕ) (c' : ClientConnection), s'.clients[i]? = some (some c') →
      ∃ c, s.clients[i]? = some (some c) ∧ c'.clientAddr = c.clientAddr)
    (hslot : ∀ (i : ℕ) (c : ClientConnection), s.clients[i]? = some (some c) →
      c.clientAddr = clientAddr →
      ∃ c', s'.clients[i]? = some (some c') ∧ c'.clientAddr = clientAddr ∧ Sound before c'.buffers)
    (hlisteners : s'.listeners = s.listeners) (htells : env.Tells clientAddr (Honest before) env') :
    Does (P := P) clientAddr before s env none s' env' := by
  refine .of_member ?_ ⟨hs', fun i c' hget haddr => ?_, fun buffers hget => ?_⟩ htells
  · rw [Bool.eq_iff_iff, isSome_findClient, isSome_findClient]
    constructor
    · rintro ⟨i, c', hget, haddr⟩
      obtain ⟨c, hget', haddr'⟩ := hkept i c' hget
      exact ⟨i, c, hget', haddr'.symm.trans haddr⟩
    · rintro ⟨i, c, hget, haddr⟩
      obtain ⟨c', hget', haddr', -⟩ := hslot i c hget haddr
      exact ⟨i, c', hget', haddr'⟩
  · obtain ⟨c, hget', haddr'⟩ := hkept i c' hget
    obtain ⟨c'', hget'', -, hsound⟩ := hslot i c hget' (haddr'.symm.trans haddr)
    rw [hget] at hget''
    cases hget''
    exact hsound
  · rw [hlisteners] at hget
    exact hs.listener buffers hget

/-- Updating the buffers of a client. -/
theorem updateClient_tells (config : ServerConfig) (pass : Pass P) {entry : Option ClientConnection}
    (hentry : ∀ c, entry = some c → c.clientAddr = clientAddr → Sound before c.buffers)
    (hone : ∀ packet ∈ before, chunkCount packet.2 = 1) (hno : pass.env.NoError) :
    pass.env.Tells clientAddr (Honest before) (updateClient config pass entry).1.env ∧
      ∀ c, entry = some c → c.clientAddr = clientAddr →
        ∃ buffers, (updateClient config pass entry).2 = some { c with buffers } ∧
          Sound before buffers := by
  cases entry with
  | none => exact ⟨.refl _, fun c hc => by cases hc⟩
  | some client =>
    rcases hupdate : client.buffers.update config.connection.resendDelay
        config.connection.maxMissedAcks config.connection.receiveTimeout client.clientAddr
        pass.env with ⟨result, buffers, env⟩
    by_cases haddr : client.clientAddr = clientAddr
    · obtain ⟨bufs, rfl, hsends, hhonest, hsound⟩ :=
        (hentry client rfl haddr).update_spec hone hno hupdate
      simp only [updateClient, hupdate]
      refine ⟨.of_sends (haddr ▸ hsends) hhonest, fun c hc _ => ?_⟩
      cases hc
      exact ⟨buffers, rfl, hsound⟩
    · obtain ⟨attempts, bufs, henv⟩ := PacketBuffers.update_env hupdate
      have htells : pass.env.Tells clientAddr (Honest before) env := by
        rw [henv]
        exact .record _ fun h => absurd h haddr
      refine ⟨?_, fun c hc hc' => ?_⟩
      · simp only [updateClient, hupdate]
        cases result <;> exact htells
      · cases hc
        exact absurd hc' haddr

theorem updateBuffers_does [Rkyv P] {u : ServerUpdate P} (hs : u.server.SoundFor clientAddr before)
    (hone : ∀ packet ∈ before, chunkCount packet.2 = 1) (hno : u.env.NoError) :
    Does (P := P) clientAddr before u.server u.env none u.updateBuffers.server
      u.updateBuffers.env := by
  obtain ⟨new, -, hslots, hlisteners, -⟩ := u.updateBuffers_spec
  have hsound : ∀ entry ∈ u.server.clients, ∀ c, entry = some c → c.clientAddr = clientAddr →
      Sound before c.buffers := by
    intro entry hentry c hc haddr
    obtain ⟨i, hi⟩ := List.getElem?_of_mem hentry
    exact hs.client i c (hc ▸ hi) haddr
  -- the socket reports no errors all through the pass
  have hvisit : ∀ pass : Pass P, ∀ entry ∈ u.server.clients, pass.env.NoError →
      pass.env.Tells clientAddr (Honest before) (updateClient u.server.config pass entry).1.env :=
    fun pass entry hentry hno => (updateClient_tells _ pass (hsound entry hentry) hone hno).1
  have hrefl : ∀ pass : Pass P, pass.env.NoError →
      pass.env.Tells clientAddr (Honest before) pass.env := fun pass _ => .refl _
  have htrans : ∀ p q r : Pass P,
      (p.env.NoError → p.env.Tells clientAddr (Honest before) q.env) →
      (q.env.NoError → q.env.Tells clientAddr (Honest before) r.env) →
      p.env.NoError → p.env.Tells clientAddr (Honest before) r.env :=
    fun p q r h h' hno => (h hno).trans (h' ((h hno).noError hno))
  refine does_of_slots hs ((Shrinks.of_visitsSlots hslots hlisteners).uniqueAddrs hs.unique)
    (fun i c' hget => ?_) (fun i c hget haddr => ?_) hlisteners ?_
  · obtain ⟨c, hget', haddr', -⟩ := hslots.kept i c' hget
    exact ⟨c, hget', haddr'⟩
  · obtain ⟨pass, hbefore, hanswer, -⟩ := Vec.getElem?_mapState hrefl htrans hvisit
      { index := 0, firstEmptySlot := 0, env := u.env, events := u.events } hget
    obtain ⟨-, hkept⟩ := updateClient_tells u.server.config pass
      (hsound _ (List.mem_of_getElem? hget)) hone ((hbefore hno).noError hno)
    obtain ⟨buffers, hslot, hsound'⟩ := hkept c rfl haddr
    obtain ⟨-, hlt⟩ := firstEmptySlot_le u.server.config u.server.clients
      { index := 0, firstEmptySlot := 0, env := u.env, events := u.events } le_rfl
    have hi := hlt i c hget
    rw [Nat.zero_add] at hi
    refine ⟨{ c with buffers }, ?_, haddr, hsound'⟩
    exact (List.getElem?_take_of_lt hi).trans (hanswer.trans (congrArg some hslot))
  · exact Vec.mapState_state hrefl htrans hvisit
      { index := 0, firstEmptySlot := 0, env := u.env, events := u.events } hno

/-- Pinging a client. -/
theorem sendPing_tells (before : List Issued) (config : ServerConfig)
    (pass : Env × List (ServerEvent P)) (entry : Option ClientConnection) (hno : pass.1.NoError)
    (hentry : ∀ c, entry = some c → c.clientAddr = clientAddr →
      c.timesOut config pass.1.now = false) :
    pass.1.Tells clientAddr (Honest before) (sendPing config pass entry).1.1 ∧
      ∀ c, entry = some c → c.clientAddr = clientAddr →
        ∃ c', (sendPing config pass entry).2 = some c' := by
  obtain ⟨env, events⟩ := pass
  cases entry with
  | none => exact ⟨.refl _, fun c hc => by cases hc⟩
  | some client =>
    have hnew : env.Tells clientAddr (Honest before) env.newUuid.2 :=
      ⟨rfl, rfl, [], by simp [Env.newUuid], by simp⟩
    have hsend : env.Tells clientAddr (Honest before)
        (env.newUuid.2.send client.clientAddr (pingDatagram env.newUuid.1)).2 :=
      hnew.trans (.send _ _ fun _ => .ping _)
    have hbusy := hentry client rfl
    unfold sendPing
    dsimp only
    split
    · exact ⟨.refl _, fun c hc _ => ⟨client, rfl⟩⟩
    · rename_i hdue
      generalize hmissed : (if (client.activePing.isSome && client.lastPong.isNone) = true
        then client.missedPongs + 1 else client.missedPongs) = missedPongs
      split
      · rename_i hexceeded
        refine ⟨.refl _, fun c hc haddr => ?_⟩
        cases hc
        -- then the client times out
        have hnot := hbusy haddr
        obtain ⟨hmissing, hmax⟩ := Bool.and_eq_true_iff.mp hexceeded
        rw [if_pos hmissing] at hmissed
        subst hmissed
        obtain ⟨hactive, hpong⟩ := Bool.and_eq_true_iff.mp hmissing
        obtain ⟨activePing, hping⟩ := Option.isSome_iff_exists.mp hactive
        have htimesOut : client.timesOut config env.now = true := by
          unfold ClientConnection.timesOut
          rw [hpong, hmax, hping]
          simpa [hping] using hdue
        rw [hnot] at htimesOut
        cases htimesOut
      · split <;> rename_i heq <;> rw [heq] at hsend
        · exact ⟨hsend, fun c hc _ => ⟨_, rfl⟩⟩
        · exact ⟨hsend, fun c hc _ => ⟨_, rfl⟩⟩
        · -- the socket reports no errors
          rcases env.newUuid.2.send_cases client.clientAddr (pingDatagram env.newUuid.1) with
            ⟨hok, -⟩ | ⟨hok, -⟩ | ⟨error, -, hfail⟩
          · rw [hok] at heq
            cases heq
          · rw [hok] at heq
            cases heq
          · exact absurd hfail (hno _ _ error)

theorem sendPings_does [Rkyv P] {u : ServerUpdate P} (hs : u.server.SoundFor clientAddr before)
    (hno : u.env.NoError)
    (hbusy : ∀ (i : ℕ) (c : ClientConnection), u.server.clients[i]? = some (some c) →
      c.clientAddr = clientAddr → c.timesOut u.server.config u.env.now = false) :
    Does (P := P) clientAddr before u.server u.env none u.sendPings.server u.sendPings.env := by
  obtain ⟨new, -, hslots, hlisteners, -⟩ := u.sendPings_spec
  -- the clock stands still and the socket reports no errors all through the pass
  have hvisit : ∀ pass : Env × List (ServerEvent P), ∀ entry ∈ u.server.clients,
      (pass.1.NoError ∧ pass.1.now = u.env.now) →
      pass.1.Tells clientAddr (Honest before) (sendPing u.server.config pass entry).1.1 := by
    rintro pass entry hentry ⟨hno, hnow⟩
    refine (sendPing_tells before u.server.config pass entry hno fun c hc haddr => ?_).1
    obtain ⟨i, hi⟩ := List.getElem?_of_mem hentry
    rw [hnow]
    exact hbusy i c (hc ▸ hi) haddr
  have hrefl : ∀ pass : Env × List (ServerEvent P), (pass.1.NoError ∧ pass.1.now = u.env.now) →
      pass.1.Tells clientAddr (Honest before) pass.1 := fun pass _ => .refl _
  have htrans : ∀ p q r : Env × List (ServerEvent P),
      ((p.1.NoError ∧ p.1.now = u.env.now) → p.1.Tells clientAddr (Honest before) q.1) →
      ((q.1.NoError ∧ q.1.now = u.env.now) → q.1.Tells clientAddr (Honest before) r.1) →
      (p.1.NoError ∧ p.1.now = u.env.now) → p.1.Tells clientAddr (Honest before) r.1 :=
    fun p q r h h' hp => (h hp).trans (h' ⟨(h hp).noError hp.1, (h hp).now.trans hp.2⟩)
  refine does_of_slots hs ((Shrinks.of_visitsSlots hslots hlisteners).uniqueAddrs hs.unique)
    (fun i c' hget => ?_) (fun i c hget haddr => ?_) hlisteners ?_
  · obtain ⟨c, hget', haddr', -⟩ := hslots.kept i c' hget
    exact ⟨c, hget', haddr'⟩
  · obtain ⟨pass, hbefore, hanswer, -⟩ := Vec.getElem?_mapState hrefl htrans hvisit
      (u.env, u.events) hget
    have hpass := hbefore ⟨hno, rfl⟩
    obtain ⟨-, hkept⟩ := sendPing_tells before u.server.config pass (some c) (hpass.noError hno)
      fun d hd hd' => by
        cases hd
        rw [hpass.now]
        exact hbusy i c hget hd'
    obtain ⟨c', hslot⟩ := hkept c rfl haddr
    obtain ⟨hbuffers, haddr'⟩ := sendPing_buffers _ pass hslot
    refine ⟨c', hanswer.trans (congrArg some hslot), haddr'.trans haddr, ?_⟩
    rw [hbuffers]
    exact hs.client i c hget haddr
  · exact Vec.mapState_state hrefl htrans hvisit (u.env, u.events) ⟨hno, rfl⟩

/-! ## A datagram of the client -/

section Receive

variable [Rkyv P] {u u' v : ServerUpdate P} {peer : List Issued} {buf : Bytes}
  {buffers buffers' : PacketBuffers} {handler : ServerHandler P}

/-- Handling a datagram is a move of the server.  A packet is reassembled only from its only part, and
only if its id is not known. -/
def Hears (clientAddr : SocketAddr) (before peer : List Issued) (buf : Bytes)
    (u u' : ServerUpdate P) : Prop :=
  ∃ received, Does (P := P) clientAddr before u.server u.env received u'.server u'.env ∧
    (u'.events.drop u.events.length).any (ServerEvent.reassembles clientAddr) = received.isSome ∧
    ∀ packet ∈ received, packet ∈ peer ∧ buf = onlyPart packet ∧
      ∃ buffers, u.server.buffersOf clientAddr = some buffers ∧
        buffers.receiveBuffer.packets.get? packet.1 = none

/-- What sound buffers make of a datagram: a packet is reassembled and checked, or nothing is. -/
theorem handleBuffers_spec {packet : Option (ClientConnectionPacket P)}
    (hb : Sound before buffers) (hbuf : Honest peer buf) (hno : u.env.NoError)
    (h : u.handleBuffers buffers clientAddr buf = .ok (packet, buffers', v)) :
    v.server = u.server ∧ Sound before buffers' ∧
      u.env.Tells clientAddr (Honest before) v.env ∧
      ((∃ received ∈ peer, buf = onlyPart received ∧
          buffers.receiveBuffer.packets.get? received.1 = none ∧
          (∃ checked, Rkyv.checkClient received.2 = .ok checked ∧ packet = checked.toOption) ∧
          ∃ new, v.events = u.events ++ .rawPacket (.part clientAddr .reassembled) :: new) ∨
        packet = none ∧ ∃ event, v.events = u.events ++ [event] ∧
          event.reassembles clientAddr = false) := by
  obtain ⟨result, b', env', bufs, hhandle, hsound, hsends, hacks, hcases⟩ :=
    hb.handle_spec hbuf hno clientAddr
  have htells : u.env.Tells clientAddr (Honest before) env' :=
    .of_sends hsends fun sent hsent => by
      obtain ⟨id, rfl⟩ := hacks sent hsent
      exact .ack id
  unfold handleBuffers at h
  rw [hhandle] at h
  dsimp only [bind, Except.bind] at h
  rcases hcases with ⟨received, hpeer, hpart, hget, rfl⟩ | hquiet
  · dsimp only at h
    obtain ⟨checked, hcheck, h⟩ := exists_of_bind_ok h
    cases checked with
    | error error =>
      cases h
      exact ⟨rfl, hsound, htells, Or.inl ⟨received, hpeer, hpart, hget, ⟨_, hcheck, rfl⟩,
        [.error (.packetValidation clientAddr error)], by simp [tell]⟩⟩
    | ok p =>
      cases h
      exact ⟨rfl, hsound, htells, Or.inl ⟨received, hpeer, hpart, hget, ⟨_, hcheck, rfl⟩, [], rfl⟩⟩
  · cases result with
    | error error =>
      cases h
      exact ⟨rfl, hsound, htells, Or.inr ⟨rfl, _, rfl, rfl⟩⟩
    | ok handling =>
      cases handling with
      | received received =>
        cases received with
        | pending | duplicate =>
          cases h
          exact ⟨rfl, hsound, htells, Or.inr ⟨rfl, _, rfl, rfl⟩⟩
        | reassembled bytes => exact absurd rfl (hquiet bytes)
      | done knownPacket | ack duplicate =>
        cases h
        exact ⟨rfl, hsound, htells, Or.inr ⟨rfl, _, rfl, rfl⟩⟩

/-- Answering with a packet of one part. -/
theorem sendPacket_spec {packet : ServerConnectionPacket P} {result : IoResult PacketId}
    (hb : Sound before buffers) (hone : chunkCount (Rkyv.serializeServer packet).flatten = 1)
    (hno : u.env.NoError)
    (h : u.sendPacket buffers clientAddr packet = .ok (result, buffers', v)) :
    ∃ id, result = .ok id ∧ v.server = u.server ∧ v.events = u.events ∧
      Sound (before ++ [(id, (Rkyv.serializeServer packet).flatten)]) buffers' ∧
      u.env.Tells clientAddr (Honest (before ++ [(id, (Rkyv.serializeServer packet).flatten)]))
        v.env := by
  obtain ⟨hserver, hsend, hevents⟩ := sendPacket_cases h
  obtain ⟨id, bufs, rfl, hsends, hbufs, hsound⟩ := hb.send_spec hone hno hsend
  refine ⟨id, rfl, hserver, ?_, hsound, .of_sends hsends fun buf hbuf => ?_⟩
  · rcases hevents with ⟨error, herror, -⟩ | ⟨packetId, -, hevents⟩
    · cases herror
    · exact hevents
  · rw [hbufs buf hbuf]
    exact .part _ (by simp)

/-- A packet of a client that is connected. -/
theorem handleClientPacket_does [LawfulRkyv P] {index : ℕ} {client : ClientConnection}
    {packet : ClientConnectionPacket P} {received : Issued}
    (hs : u.server.SoundFor clientAddr before)
    (hget : u.server.clients[index]? = some (some client)) (hc : client.clientAddr = clientAddr)
    (hcheck : Rkyv.checkClient received.2 = .ok (.ok packet)) (hno : u.env.NoError)
    (hhandler : handler.SinglePart clientAddr)
    (h : u.handleClientPacket handler index client packet = .ok u') :
    Does (P := P) clientAddr before u.server u.env (some received) u'.server u'.env ∧
      ∃ new, u'.events = u.events ++ new := by
  have hmember : (u.server.findClient clientAddr).isSome = true :=
    isSome_findClient.mpr ⟨index, client, hget, hc⟩
  obtain ⟨hsound', hnone⟩ := hs.disconnectClient hget hc
  cases packet with
  | query query =>
    unfold handleClientPacket at h
    dsimp only at h
    cases hsend : (u.tell (.query client.clientAddr query)).sendPacket client.buffers
        client.clientAddr (.status (handler.query u.events client.clientAddr query)) with
    | error abort => simp [hsend, bind, Except.bind] at h
    | ok sent =>
      obtain ⟨result, buffers, v⟩ := sent
      subst hc
      obtain ⟨id, rfl, hserver, hevents, hsound, htells⟩ := sendPacket_spec
        (u := u.tell (.query client.clientAddr query)) (hs.client index client hget rfl)
        (hhandler.status _ _) hno hsend
      simp only [hsend, bind, Except.bind, pure, Except.pure] at h
      cases h
      refine ⟨⟨[(id, _)], ?_, by simpa using hhandler.status u.events query, ?_, htells⟩, ?_⟩
      · rw [hmember]
        have hafter : ((v.setClient index { client with buffers }).server.findClient
            client.clientAddr).isSome = true := by
          rw [setClient_server, hserver]
          exact isSome_setClient { client with buffers } hget rfl
        rw [hafter]
        refine .answer _ _ _ ?_ ?_
        · simp [connects, readsClient, hcheck, ClientConnectionPacket.isConnect]
        · simp [Unrelated, accepts, rejects, kicks, readsServer, LawfulRkyv.checkServer_serialize,
            ServerConnectionPacket.isAccept, ServerConnectionPacket.isReject,
            ServerConnectionPacket.isKick]
      · rw [setClient_server, hserver]
        exact hs.setClient (List.subset_append_left _ _) hget rfl rfl hsound
      · exact ⟨[.query client.clientAddr query], hevents⟩
  | connect connect =>
    cases h
    refine ⟨.of_move ?_ hsound' (.refl _), _, rfl⟩
    have hafter : ((u.server.disconnectClient index client).findClient clientAddr).isSome = false := by
      rw [hnone]
      rfl
    change ServerMove P _ _ ((u.server.disconnectClient index client).findClient clientAddr).isSome []
    rw [hmember, hafter]
    refine .leave _ (Or.inl ?_)
    simp [connects, readsClient, hcheck, ClientConnectionPacket.isConnect]
  | disconnect disconnect =>
    cases h
    refine ⟨.of_move ?_ hsound' (.refl _), _, rfl⟩
    have hafter : ((u.server.disconnectClient index client).findClient clientAddr).isSome = false := by
      rw [hnone]
      rfl
    change ServerMove P _ _ ((u.server.disconnectClient index client).findClient clientAddr).isSome []
    rw [hmember, hafter]
    refine .leave _ (Or.inr ?_)
    simp [disconnects, readsClient, hcheck, ClientConnectionPacket.isDisconnect]
  | user packet =>
    cases h
    refine ⟨.of_move (.answer _ _ _ ?_ (by simp [Unrelated])) hs (.refl _), _, rfl⟩
    simp [connects, readsClient, hcheck, ClientConnectionPacket.isConnect]

/-- A packet of a client that is not connected. -/
theorem handleListenerPacket_does [LawfulRkyv P] {packet : ClientConnectionPacket P}
    {received : Issued} (hs : u.server.SoundFor clientAddr before)
    (hnone : u.server.findClient clientAddr = none) (hb : Sound before buffers)
    (hcheck : Rkyv.checkClient received.2 = .ok (.ok packet)) (hno : u.env.NoError)
    (hhandler : handler.SinglePart clientAddr)
    (h : u.handleListenerPacket handler clientAddr buffers packet = .ok u') :
    Does (P := P) clientAddr before u.server u.env (some received) u'.server u'.env ∧
      ∃ new, u'.events = u.events ++ new := by
  have hmember : (u.server.findClient clientAddr).isSome = false := by
    rw [hnone]
    rfl
  have hquiet : ∀ {event : ServerEvent P}, u' = u.tell event → connects P received = false →
      Does (P := P) clientAddr before u.server u.env (some received) u'.server u'.env ∧
        ∃ new, u'.events = u.events ++ new := by
    rintro event rfl hconnect
    exact ⟨.of_move (.answer _ _ _ hconnect (by simp [Unrelated])) hs (.refl _), _, rfl⟩
  cases packet with
  | query query =>
    unfold handleListenerPacket at h
    dsimp only at h
    cases hsend : (u.tell (.query clientAddr query)).sendPacket buffers clientAddr
        (.status (handler.query u.events clientAddr query)) with
    | error abort => simp [hsend, bind, Except.bind] at h
    | ok sent =>
      obtain ⟨result, buffers', v⟩ := sent
      obtain ⟨id, rfl, hserver, hevents, hsound, htells⟩ := sendPacket_spec
        (u := u.tell (.query clientAddr query)) hb (hhandler.status _ _) hno hsend
      simp only [hsend, bind, Except.bind, pure, Except.pure] at h
      cases h
      have hserver' : (v.setListener clientAddr buffers').server = { u.server with
          listeners := u.server.listeners.insert clientAddr buffers' } := by
        simp only [setListener, hserver]
        rfl
      rw [hserver']
      refine ⟨⟨[(id, _)], .answer _ _ _ ?_ ?_, by simpa using hhandler.status u.events query, ?_,
        htells⟩, [.query clientAddr query], hevents⟩
      · simp [connects, readsClient, hcheck, ClientConnectionPacket.isConnect]
      · simp [Unrelated, accepts, rejects, kicks, readsServer, LawfulRkyv.checkServer_serialize,
          ServerConnectionPacket.isAccept, ServerConnectionPacket.isReject,
          ServerConnectionPacket.isKick]
      · exact hs.insert (List.subset_append_left _ _) hnone hsound
  | connect connect =>
    have hconnect : connects P received = true := by
      simp [connects, readsClient, hcheck, ClientConnectionPacket.isConnect]
    unfold handleListenerPacket at h
    dsimp only at h
    cases hanswer : handler.connect u.events clientAddr connect with
    | accept accept =>
      rw [hanswer] at h
      dsimp only at h
      have hone := hhandler.accept _ _ _ hanswer
      cases hsend : (u.tell (.connect clientAddr connect)).sendPacket buffers clientAddr
          (.accept accept) with
      | error abort => simp [hsend, bind, Except.bind] at h
      | ok sent =>
        obtain ⟨result, buffers', v⟩ := sent
        obtain ⟨id, rfl, hserver, hevents, hsound, htells⟩ := sendPacket_spec
          (u := u.tell (.connect clientAddr connect)) hb hone hno hsend
        simp only [hsend, bind, Except.bind, pure, Except.pure] at h
        cases h
        have hserver' : v.server = u.server := hserver
        dsimp only [setListener]
        rw [hserver']
        obtain ⟨hsound', hafter⟩ := SoundFor.addClient
          ((u.server.listeners.insert clientAddr buffers').erase clientAddr) hs hnone hsound fun a => by
            rw [SortedMap.get?_erase]
            split_ifs with ha
            · rfl
            · rw [SortedMap.get?_insert, if_neg ha]
        refine ⟨⟨[(id, _)], ?_, by simpa using hone, hsound', htells⟩,
          [.connect clientAddr connect], hevents⟩
        rw [hmember, hafter]
        refine .accept _ _ hconnect ?_
        simp [accepts, readsServer, LawfulRkyv.checkServer_serialize, ServerConnectionPacket.isAccept]
    | reject reject =>
      rw [hanswer] at h
      dsimp only at h
      have hone := hhandler.reject _ _ _ hanswer
      cases hsend : (u.tell (.connect clientAddr connect)).sendPacket buffers clientAddr
          (.reject reject) with
      | error abort => simp [hsend, bind, Except.bind] at h
      | ok sent =>
        obtain ⟨result, buffers', v⟩ := sent
        obtain ⟨id, rfl, hserver, hevents, hsound, htells⟩ := sendPacket_spec
          (u := u.tell (.connect clientAddr connect)) hb hone hno hsend
        simp only [hsend, bind, Except.bind, pure, Except.pure] at h
        cases h
        have hserver' : (v.setListener clientAddr buffers').server = { u.server with
            listeners := u.server.listeners.insert clientAddr buffers' } := by
          simp only [setListener, hserver]
          rfl
        rw [hserver']
        refine ⟨⟨[(id, _)], ?_, by simpa using hone, ?_, htells⟩, [.connect clientAddr connect],
          hevents⟩
        · change ServerMove P _ _ (u.server.findClient clientAddr).isSome _
          rw [hmember]
          refine .reject _ _ hconnect ?_
          simp [rejects, readsServer, LawfulRkyv.checkServer_serialize,
            ServerConnectionPacket.isReject]
        · exact hs.insert (List.subset_append_left _ _) hnone hsound
  | disconnect disconnect =>
    cases h
    exact hquiet rfl (by simp [connects, readsClient, hcheck, ClientConnectionPacket.isConnect])
  | user packet =>
    cases h
    exact hquiet rfl (by simp [connects, readsClient, hcheck, ClientConnectionPacket.isConnect])

/-- Nothing is reassembled. -/
theorem Hears.quiet {new : List (ServerEvent P)} (hevents : u'.events = u.events ++ new)
    (hnew : ∀ e ∈ new, e.reassembles clientAddr = false)
    (hdoes : Does (P := P) clientAddr before u.server u.env none u'.server u'.env) :
    Hears clientAddr before peer buf u u' := by
  refine ⟨none, hdoes, ?_, by simp⟩
  rw [hevents, List.drop_left, Option.isSome_none, List.any_eq_false]
  intro e he
  simp [hnew e he]

/-- A packet is reassembled, from its only part. -/
theorem Hears.reassembled {received : Issued} {new : List (ServerEvent P)} (hpeer : received ∈ peer)
    (hbuffers : u.server.buffersOf clientAddr = some buffers)
    (hnew : buffers.receiveBuffer.packets.get? received.1 = none)
    (hevents : u'.events = u.events ++ .rawPacket (.part clientAddr .reassembled) :: new)
    (hdoes : Does (P := P) clientAddr before u.server u.env (some received) u'.server u'.env) :
    Hears clientAddr before peer (onlyPart received) u u' := by
  refine ⟨some received, hdoes, ?_, ?_⟩
  · rw [hevents, List.drop_left]
    simp [ServerEvent.reassembles]
  · rintro packet ⟨⟩
    exact ⟨hpeer, rfl, buffers, hbuffers, hnew⟩

/-- A datagram that the buffers handled, which are put back where they were. -/
theorem Hears.of_buffers {w : ServerUpdate P} {packet : Option (ClientConnectionPacket P)}
    (hbuffers : u.server.buffersOf clientAddr = some buffers)
    (htells : u.env.Tells clientAddr (Honest before) w.env)
    (hw : w.server.SoundFor clientAddr before)
    (hmember : (w.server.findClient clientAddr).isSome = (u.server.findClient clientAddr).isSome)
    (hcases : (∃ received ∈ peer, buf = onlyPart received ∧
        buffers.receiveBuffer.packets.get? received.1 = none ∧
        (∃ checked, Rkyv.checkClient received.2 = .ok checked ∧ packet = checked.toOption) ∧
        ∃ new, w.events = u.events ++ .rawPacket (.part clientAddr .reassembled) :: new) ∨
      packet = none ∧ ∃ event, w.events = u.events ++ [event] ∧ event.reassembles clientAddr = false)
    (hnone : packet = none → u' = w)
    (hsome : ∀ p received, packet = some p → Rkyv.checkClient received.2 = .ok (.ok p) →
      Does (P := P) clientAddr before w.server w.env (some received) u'.server u'.env ∧
        ∃ new, u'.events = w.events ++ new) :
    Hears clientAddr before peer buf u u' := by
  rcases hcases with ⟨received, hpeer, rfl, hget, ⟨checked, hcheck, hpacket⟩, new, hevents⟩ |
    ⟨hpacket, event, hevents, hevent⟩
  · cases checked with
    | error error =>
      obtain rfl := hnone hpacket
      refine .reassembled hpeer hbuffers hget hevents (.of_move ?_ hw htells)
      rw [hmember]
      refine .answer _ _ _ ?_ (by simp [Unrelated])
      simp [connects, readsClient, hcheck]
    | ok p =>
      obtain ⟨hdoes, new', hevents'⟩ := hsome p received hpacket hcheck
      have hall : u'.events = u.events ++ .rawPacket (.part clientAddr .reassembled) :: (new ++ new') := by
        rw [hevents', hevents, List.append_assoc]
        rfl
      exact .reassembled hpeer hbuffers hget hall (hdoes.after hmember htells)
  · obtain rfl := hnone hpacket
    refine .quiet hevents (fun e he => ?_) (.of_member hmember hw htells)
    rw [List.mem_singleton.mp he]
    exact hevent

theorem handleVersionRequest_hears (hs : u.server.SoundFor clientAddr before) :
    Hears clientAddr before peer [] u (u.handleVersionRequest handler clientAddr) := by
  have htells : u.env.Tells clientAddr (Honest before)
      (u.handleVersionRequest handler clientAddr).env :=
    handleVersionRequest_tells fun _ => .version _
  have hself : u.handleVersionRequest handler clientAddr = u.handleVersionRequest handler clientAddr :=
    rfl
  rcases handleVersionRequest_cases hself with
    ⟨⟨new, hevents, hnew⟩, hserver⟩ | ⟨-, -, hclient, hevents, hserver⟩
  · refine .quiet hevents (fun e he => ?_) ?_
    · rcases hnew e he with rfl | ⟨error, rfl⟩ <;> rfl
    · rw [hserver]
      exact .of_member rfl hs htells
  · refine .quiet hevents (fun e he => ?_) ?_
    · rw [List.mem_singleton.mp he]
      rfl
    · rw [hserver]
      exact .of_member rfl (hs.insert (List.Subset.refl _) hclient (.new _ _)) htells

/-- A datagram of a client that is connected. -/
theorem handleClient_hears [LawfulRkyv P] {index : ℕ} {client : ClientConnection} {kind : UInt8}
    {data : Bytes} (hs : u.server.SoundFor clientAddr before)
    (hget : u.server.clients[index]? = some (some client)) (hc : client.clientAddr = clientAddr)
    (hno : u.env.NoError) (hbuf : Honest peer (kind :: data))
    (hhandler : handler.SinglePart clientAddr)
    (h : u.handleClient handler index client kind data = .ok u') :
    Hears clientAddr before peer (kind :: data) u u' := by
  have hfind := findClient_of_slot hs.unique hget
  have hmember : ∀ client' : ClientConnection, client'.clientAddr = clientAddr →
      ((u.server.setClient index (some client')).findClient clientAddr).isSome =
        (u.server.findClient clientAddr).isSome := by
    intro client' haddr
    rw [isSome_setClient client' hget haddr, ← hc, hfind]
    rfl
  have hsound := hs.client index client hget hc
  unfold handleClient at h
  split_ifs at h with hping
  · cases h
    obtain ⟨client', -, haddr, hbuffers, -, -, hserver⟩ := handlePong_cases hget data
    obtain ⟨e, hevents, he⟩ := u.handlePong_events clientAddr index client data
    refine .quiet hevents (fun e' he' => ?_) ?_
    · rw [List.mem_singleton.mp he']
      exact he
    · rw [hserver, handlePong_env]
      refine .of_member (hmember client' (haddr.trans hc)) ?_ (.refl _)
      exact hs.setClient (List.Subset.refl _) hget hc (haddr.trans hc) (hbuffers ▸ hsound)
  · subst hc
    cases hhandle : u.handleBuffers client.buffers client.clientAddr (kind :: data) with
    | error abort => simp [hhandle, bind, Except.bind] at h
    | ok handled =>
      obtain ⟨packet, buffers, v⟩ := handled
      obtain ⟨hserver, hsound', htells, hcases⟩ := handleBuffers_spec hsound hbuf hno hhandle
      simp only [hhandle, bind, Except.bind, pure, Except.pure] at h
      have hset : (v.setClient index { client with buffers }).server =
          u.server.setClient index (some { client with buffers }) := by
        rw [setClient_server, hserver]
      have hset' : (v.setClient index { client with buffers }).server.SoundFor client.clientAddr
          before := by
        rw [hset]
        exact hs.setClient (List.Subset.refl _) hget rfl rfl hsound'
      have hget' : (v.setClient index { client with buffers }).server.clients[index]? =
          some (some { client with buffers }) := by
        rw [hset, getElem?_setClient _ (List.getElem?_eq_some_iff.mp hget).1, if_pos rfl]
      refine .of_buffers (w := v.setClient index { client with buffers }) (by simp [buffersOf, hfind])
        htells hset' ?_ hcases ?_ ?_
      · rw [hset]
        exact hmember { client with buffers } rfl
      · rintro rfl
        cases h
        rfl
      · rintro p received rfl hcheck
        exact handleClientPacket_does hset' hget' rfl hcheck (htells.noError hno) hhandler h

/-- A datagram of a client that is not connected. -/
theorem handleListener_hears [LawfulRkyv P] (hs : u.server.SoundFor clientAddr before)
    (hnone : u.server.findClient clientAddr = none)
    (hget : u.server.listeners.get? clientAddr = some buffers) (hno : u.env.NoError)
    (hbuf : Honest peer buf) (hhandler : handler.SinglePart clientAddr)
    (h : u.handleListener handler clientAddr buffers buf = .ok u') :
    Hears clientAddr before peer buf u u' := by
  unfold handleListener at h
  cases hhandle : u.handleBuffers buffers clientAddr buf with
  | error abort => simp [hhandle, bind, Except.bind] at h
  | ok handled =>
    obtain ⟨packet, buffers', v⟩ := handled
    obtain ⟨hserver, hsound', htells, hcases⟩ :=
      handleBuffers_spec (hs.listener buffers hget) hbuf hno hhandle
    simp only [hhandle, bind, Except.bind, pure, Except.pure] at h
    have hset : (v.setListener clientAddr buffers').server =
        { u.server with listeners := u.server.listeners.insert clientAddr buffers' } := by
      rw [setListener, hserver]
    have hset' : (v.setListener clientAddr buffers').server.SoundFor clientAddr before := by
      rw [hset]
      exact hs.insert (List.Subset.refl _) hnone hsound'
    have hnone' : (v.setListener clientAddr buffers').server.findClient clientAddr = none := by
      rw [hset]
      exact hnone
    refine .of_buffers (w := v.setListener clientAddr buffers') (by simp [buffersOf, hnone, hget])
      htells hset' ?_ hcases ?_ ?_
    · rw [hnone, hnone']
    · rintro rfl
      cases h
      rfl
    · rintro p received rfl hcheck
      exact handleListenerPacket_does hset' hnone' hsound' hcheck (htells.noError hno) hhandler h

/-- **A datagram of the client.** -/
theorem handleDatagram_hears [LawfulRkyv P] (hs : u.server.SoundFor clientAddr before)
    (hno : u.env.NoError) (hbuf : Honest peer buf) (hhandler : handler.SinglePart clientAddr)
    (h : u.handleDatagram handler clientAddr buf = .ok u') :
    Hears clientAddr before peer buf u u' := by
  unfold handleDatagram at h
  cases buf with
  | nil =>
    cases h
    exact handleVersionRequest_hears hs
  | cons kind data =>
    dsimp only at h
    split at h
    · rename_i index client hfind
      obtain ⟨hget, hc⟩ := findClient_eq_some hfind
      exact handleClient_hears hs hget hc hno hbuf hhandler h
    · rename_i hnone
      split at h
      · rename_i buffers hget
        exact handleListener_hears hs hnone hget hno hbuf hhandler h
      · cases h
        refine .quiet rfl (fun e he => ?_) (.of_member rfl hs (.refl _))
        rw [List.mem_singleton.mp he]
        rfl

/-- **A datagram of another client.** -/
theorem handleDatagram_other {sender : SocketAddr} (hs : u.server.SoundFor clientAddr before)
    (hne : sender ≠ clientAddr) (h : u.handleDatagram handler sender buf = .ok u') :
    Does (P := P) clientAddr before u.server u.env none u'.server u'.env ∧
      (u'.events.drop u.events.length).any (ServerEvent.reassembles clientAddr) = false := by
  have hhandled := handled h
  have hunique : u'.server.UniqueAddrs := by
    rcases hhandled.shrinks_or_adds hs.unique with hshrinks | hadds
    · exact hshrinks.uniqueAddrs hs.unique
    · exact hadds.uniqueAddrs hs.unique
  exact ⟨.of_sameEntry hs hunique (hhandled.sameEntry hunique (Ne.symm hne)) (handleDatagram_tells hne h),
    hhandled.not_reassembles hne⟩

end Receive

end ServerUpdate

end Ultinet
