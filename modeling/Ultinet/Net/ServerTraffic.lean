import Ultinet.Net.OtherClients
import Ultinet.Net.ServerResend

/-!
# To whom a server talks

A server does not talk to strangers: whatever it sends goes to an address that asked for the version
before, or is the answer to such a request (`Visited.only_to_visitors`).  And its slots are reused: there
are never more of them than there were clients connected at one time, which are never more than
addresses that asked (`Visited.slots_le_peak`).

For this a server is observed together with the addresses that asked, and with the largest number of
clients that were connected at the same time (`Visited`).
-/

namespace Ultinet

variable {P : Packets}

/-! ## What a call sends -/

namespace Env.SendsTo

/-- A send is to its address. -/
theorem send (env : Env) (addr : SocketAddr) (buf : Bytes) :
    SendsTo (fun a => a = addr) env (env.send addr buf).2 := by
  have hself : ∀ (attempts : List (SocketAddr × Bytes)) (bufs : List Bytes),
      SendsTo (fun a => a = addr) env (env.record attempts (bufs.map (Prod.mk addr))) := by
    intro attempts bufs
    refine .record ?_ env attempts bufs
    rfl
  rcases env.send_cases addr buf with ⟨hsend, -⟩ | ⟨hsend, -⟩ | ⟨error, hsend, -⟩
  · rw [hsend]
    exact hself _ [buf]
  · rw [hsend]
    exact hself _ []
  · rw [hsend]
    exact hself _ []

/-- Drawing an id sends nothing. -/
theorem newUuid {addrs : SocketAddr → Prop} (env : Env) : SendsTo addrs env env.newUuid.2 :=
  ⟨rfl, rfl, List.Subset.refl _, fun _ h => Or.inl h⟩

end Env.SendsTo

/-- Handling a datagram sends to the peer of the buffers only. -/
theorem PacketBuffers.handle_sendsTo {b b' : PacketBuffers} {buf : Bytes} {addr : SocketAddr}
    {env env' : Env} {result : Except HandlePacketError PacketHandling}
    (h : b.handle buf addr env = .ok (result, b', env')) :
    Env.SendsTo (fun a => a = addr) env env' := by
  obtain ⟨tried, bufs, rfl, -⟩ := PacketBuffers.handle_acks h
  refine .record ?_ env _ bufs
  rfl

/-- Sending a packet sends to the peer of the buffers only. -/
theorem PacketBuffers.send_sendsTo {b b' : PacketBuffers} {packet : List Bytes} {threshold : ℕ}
    {addr : SocketAddr} {env env' : Env} {result : IoResult PacketId}
    (h : b.send packet threshold addr env = .ok (result, b', env')) :
    Env.SendsTo (fun a => a = addr) env env' := by
  obtain ⟨tried, bufs, rfl⟩ := PacketBuffers.send_env h
  refine (Env.SendsTo.newUuid env).trans (.record ?_ env.newUuid.2 _ bufs)
  rfl

namespace ServerUpdate

variable {handler : ServerHandler P} {u u' : ServerUpdate P} {addr : SocketAddr} {buf : Bytes}
  {buffers buffers' : PacketBuffers}

/-- The answer to a version request goes to who asked. -/
theorem handleVersionRequest_sendsTo (handler : ServerHandler P) (u : ServerUpdate P)
    (addr : SocketAddr) :
    Env.SendsTo (fun a => a = addr) u.env (u.handleVersionRequest handler addr).env := by
  have hsend := Env.SendsTo.send u.env addr (PacketKind.version.toByte ::
    (VersionPacket.write (handler.version u.events)).val)
  unfold handleVersionRequest
  dsimp only
  split <;> rename_i heq
  · have henv := congrArg Prod.snd heq
    dsimp only [tell] at henv
    rw [henv] at hsend
    split_ifs <;> exact hsend
  · have henv := congrArg Prod.snd heq
    dsimp only [tell] at henv
    rw [henv] at hsend
    exact hsend

section Receive

variable [Rkyv P]

/-- Handling a datagram with some buffers sends to its sender. -/
theorem handleBuffers_sendsTo {packet : Option (ClientConnectionPacket P)}
    (h : u.handleBuffers buffers addr buf = .ok (packet, buffers', u')) :
    Env.SendsTo (fun a => a = addr) u.env u'.env := by
  unfold handleBuffers at h
  obtain ⟨⟨result, buffers'', env⟩, hhandle, h⟩ := exists_of_bind_ok h
  have hsends := PacketBuffers.handle_sendsTo hhandle
  dsimp only at h
  split at h
  · cases h
    exact hsends
  · cases h
    exact hsends
  · cases h
    exact hsends
  · obtain ⟨checked, -, h⟩ := exists_of_bind_ok h
    cases checked <;> cases h <;> exact hsends
  · cases h
    exact hsends
  · cases h
    exact hsends

/-- A packet goes to its address. -/
theorem sendPacket_sendsTo {packet : ServerConnectionPacket P} {result : IoResult PacketId}
    (h : u.sendPacket buffers addr packet = .ok (result, buffers', u')) :
    Env.SendsTo (fun a => a = addr) u.env u'.env :=
  PacketBuffers.send_sendsTo (sendPacket_cases h).2.1

/-- A packet of a connected client is answered to it. -/
theorem handleClientPacket_sendsTo {index : ℕ} {client : ClientConnection}
    {packet : ClientConnectionPacket P}
    (h : u.handleClientPacket handler index client packet = .ok u') :
    Env.SendsTo (fun a => a = client.clientAddr) u.env u'.env := by
  cases packet with
  | query query =>
    obtain ⟨⟨result, buffers, v⟩, hsend, h⟩ := exists_of_bind_ok h
    have hsends := sendPacket_sendsTo hsend
    dsimp only at h
    split at h <;> cases h <;> exact hsends
  | connect | disconnect | user =>
    cases h
    exact .refl _

/-- A datagram of a connected client is answered to it. -/
theorem handleClient_sendsTo {index : ℕ} {client : ClientConnection} {kind : UInt8} {data : Bytes}
    (h : u.handleClient handler index client kind data = .ok u') :
    Env.SendsTo (fun a => a = client.clientAddr) u.env u'.env := by
  unfold handleClient at h
  split_ifs at h
  · cases h
    rw [handlePong_env]
    exact .refl _
  · obtain ⟨⟨packet, buffers, v⟩, hbuffers, h⟩ := exists_of_bind_ok h
    have hsends := handleBuffers_sendsTo hbuffers
    dsimp only at h
    split at h
    · cases h
      exact hsends
    · have hrest := handleClientPacket_sendsTo h
      exact hsends.trans hrest

/-- A packet of a listener is answered to it. -/
theorem handleListenerPacket_sendsTo {packet : ClientConnectionPacket P}
    (h : u.handleListenerPacket handler addr buffers packet = .ok u') :
    Env.SendsTo (fun a => a = addr) u.env u'.env := by
  cases packet with
  | query query =>
    obtain ⟨⟨result, buffers', v⟩, hsend, h⟩ := exists_of_bind_ok h
    have hsends := sendPacket_sendsTo hsend
    cases h
    exact hsends
  | connect connect =>
    unfold handleListenerPacket at h
    dsimp only at h
    split at h
    · obtain ⟨⟨result, buffers', v⟩, hsend, h⟩ := exists_of_bind_ok h
      have hsends := sendPacket_sendsTo hsend
      dsimp only at h
      split at h <;> cases h <;> exact hsends
    · obtain ⟨⟨result, buffers', v⟩, hsend, h⟩ := exists_of_bind_ok h
      have hsends := sendPacket_sendsTo hsend
      cases h
      exact hsends
  | disconnect | user =>
    cases h
    exact .refl _

/-- A datagram of a listener is answered to it. -/
theorem handleListener_sendsTo (h : u.handleListener handler addr buffers buf = .ok u') :
    Env.SendsTo (fun a => a = addr) u.env u'.env := by
  unfold handleListener at h
  obtain ⟨⟨packet, buffers', v⟩, hbuffers, h⟩ := exists_of_bind_ok h
  have hsends := handleBuffers_sendsTo hbuffers
  dsimp only at h
  split at h
  · cases h
    exact hsends
  · have hrest := handleListenerPacket_sendsTo h
    exact hsends.trans hrest

end Receive

end ServerUpdate

/-! ## Whom the server knows -/

namespace Server

variable {s t : Server} {a : SocketAddr}

/-- The server listens to an address, or the address has a slot. -/
def Knows (s : Server) (a : SocketAddr) : Prop :=
  (s.listeners.get? a).isSome = true ∨ HasSlot s.clients a

/-- How many clients are connected. -/
def connectedCount (s : Server) : ℕ :=
  s.clients.countP Option.isSome

/-- Who is found has a slot. -/
theorem hasSlot_of_findClient {index : ℕ} {client : ClientConnection}
    (h : s.findClient a = some (index, client)) : HasSlot s.clients a := by
  obtain ⟨hget, haddr⟩ := findClient_eq_some h
  exact ⟨client, List.mem_of_getElem? hget, haddr⟩

/-- Setting a slot adds at most the address of its client. -/
theorem hasSlot_set {clients : List (Option ClientConnection)} {index : ℕ}
    {entry : Option ClientConnection} (h : HasSlot (clients.set index entry) a) :
    HasSlot clients a ∨ ∃ client, entry = some client ∧ client.clientAddr = a := by
  obtain ⟨client, hmem, haddr⟩ := h
  rcases List.mem_or_eq_of_mem_set hmem with hbefore | rfl
  · exact Or.inl ⟨client, hbefore, haddr⟩
  · exact Or.inr ⟨client, rfl, haddr⟩

/-- A pass over the slots adds no address. -/
theorem hasSlot_of_visitsSlots {clients clients' : List (Option ClientConnection)}
    {new : List (ServerEvent P)} (h : VisitsSlots clients clients' new) (ha : HasSlot clients' a) :
    HasSlot clients a := by
  obtain ⟨client, hmem, haddr⟩ := ha
  obtain ⟨i, hi⟩ := List.getElem?_of_mem hmem
  obtain ⟨client', hget, hsame, -⟩ := h.kept i client hi
  exact ⟨client', List.mem_of_getElem? hget, hsame.symm.trans haddr⟩

/-- Adding a client adds its address. -/
theorem hasSlot_addClient {client : ClientConnection}
    (h : HasSlot (s.addClient client).clients a) : HasSlot s.clients a ∨ a = client.clientAddr := by
  obtain ⟨client', hmem, haddr⟩ := h
  obtain ⟨i, hi⟩ := List.getElem?_of_mem hmem
  obtain ⟨index, -, hslots, -⟩ := s.addClient_spec client
  rw [hslots] at hi
  split_ifs at hi
  · cases hi
    exact Or.inr haddr.symm
  · exact Or.inl ⟨client', List.mem_of_getElem? hi, haddr⟩

/-- A new slot is only made if all the others are occupied. -/
theorem length_addClient_le (s : Server) (client : ClientConnection) :
    (s.addClient client).clients.length ≤
      max s.clients.length (s.addClient client).connectedCount := by
  unfold addClient
  split
  · refine le_max_of_le_left ?_
    simp [setClient]
  · rename_i hfull
    have hall : ∀ entry ∈ s.clients, entry.isSome = true := by
      intro entry hentry
      have hnot := Vec.position_eq_none.mp hfull entry hentry
      cases entry with
      | none => exact absurd rfl hnot
      | some _ => rfl
    refine le_max_of_le_right ?_
    have hcount := List.countP_eq_length.mpr hall
    simp [connectedCount, List.countP_append, hcount]

/-- Connected clients have different addresses, so there are not more of them than such addresses. -/
theorem connectedCount_le {addrs : List SocketAddr} (hs : s.UniqueAddrs)
    (hknown : ∀ a, HasSlot s.clients a → a ∈ addrs) : s.connectedCount ≤ addrs.toFinset.card := by
  have hlength : s.connectedCount =
      (s.clients.filterMap fun entry => entry.map ClientConnection.clientAddr).length := by
    rw [List.length_filterMap_eq_countP]
    exact List.countP_congr fun entry _ => by simp
  have hnodup : (s.clients.filterMap fun entry => entry.map ClientConnection.clientAddr).Nodup := by
    refine List.pairwise_filterMap.mpr (List.pairwise_iff_getElem.mpr ?_)
    intro i j hi hj hlt a ha b hb heq
    obtain ⟨c, hc, rfl⟩ := Option.map_eq_some_iff.mp ha
    obtain ⟨d, hd, rfl⟩ := Option.map_eq_some_iff.mp hb
    have hij := hs.slots i j c d (List.getElem?_eq_some_iff.mpr ⟨hi, hc⟩)
      (List.getElem?_eq_some_iff.mpr ⟨hj, hd⟩) heq
    omega
  rw [hlength, ← List.toFinset_card_of_nodup hnodup]
  refine Finset.card_le_card fun a ha => ?_
  rw [List.mem_toFinset] at ha ⊢
  obtain ⟨entry, hentry, hsome⟩ := List.mem_filterMap.mp ha
  obtain ⟨client, rfl, haddr⟩ := Option.map_eq_some_iff.mp hsome
  exact hknown a ⟨client, hentry, haddr⟩

end Server

/-! ## One step -/

namespace ServerStep

/-- The address that asks for the version. -/
def asks : ServerStep P → List SocketAddr
  | .datagram _ addr buf => if recv buf = [] then [addr] else []
  | _ => []

end ServerStep

namespace ServerRun

open Server

variable [Rkyv P] {u u' : ServerUpdate P} {l : ServerStep P} {handler : ServerHandler P}
  {addr a : SocketAddr} {buf : Bytes}

/-- A datagram makes an address known only if it is a version request from there. -/
theorem handled_knows (h : u.Handled handler addr buf u') (ha : u'.server.Knows a) :
    u.server.Knows a ∨ buf = [] ∧ a = addr := by
  cases h with
  | version _ _ _ _ hserver | unknown _ _ _ _ hserver =>
    rw [hserver] at ha
    exact Or.inl ha
  | versionAnswered hbuf _ _ _ _ hserver =>
    rw [hserver] at ha
    rcases ha with hlistener | hslot
    · dsimp only at hlistener
      rw [SortedMap.get?_insert] at hlistener
      split_ifs at hlistener with heq
      · exact Or.inr ⟨hbuf, heq⟩
      · exact Or.inl (Or.inl hlistener)
    · exact Or.inl (Or.inr hslot)
  | client index client client' _ _ hfind haddr _ _ _ hserver =>
    rw [hserver] at ha
    rcases ha with hlistener | hslot
    · exact Or.inl (Or.inl hlistener)
    · rcases hasSlot_set hslot with hbefore | ⟨d, hd, rfl⟩
      · exact Or.inl (Or.inr hbefore)
      · cases hd
        rw [haddr]
        exact Or.inl (Or.inr (hasSlot_of_findClient hfind))
  | disconnected index client client' _ _ _ _ _ hfind haddr _ _ _ _ hserver =>
    rw [hserver] at ha
    rcases ha with hlistener | hslot
    · have hget : ((u.server.listeners.insert client'.clientAddr client'.buffers).get? a).isSome =
          true := hlistener
      rw [SortedMap.get?_insert] at hget
      split_ifs at hget with heq
      · rw [heq, haddr]
        exact Or.inl (Or.inr (hasSlot_of_findClient hfind))
      · exact Or.inl (Or.inl hget)
    · rcases hasSlot_set hslot with hbefore | ⟨d, hd, -⟩
      · exact Or.inl (Or.inr hbefore)
      · cases hd
  | listener buffers buffers' _ _ _ hget _ _ _ hlisteners hclients =>
    rcases ha with hlistener | hslot
    · rw [hlisteners] at hlistener
      split_ifs at hlistener with heq
      · rw [heq]
        exact Or.inl (Or.inl (by rw [hget]; rfl))
      · exact Or.inl (Or.inl hlistener)
    · rw [hclients] at hslot
      exact Or.inl (Or.inr hslot)
  | accepted _ _ buffers'' _ _ _ _ _ _ _ hget _ _ _ _ hlisteners hclients =>
    rcases ha with hlistener | hslot
    · rw [hlisteners] at hlistener
      split_ifs at hlistener
      · cases hlistener
      · exact Or.inl (Or.inl hlistener)
    · rw [hclients] at hslot
      rcases hasSlot_addClient hslot with hbefore | rfl
      · exact Or.inl (Or.inr hbefore)
      · refine Or.inl (Or.inl ?_)
        rw [hget]
        rfl

/-- A step makes an address known only if the address asks for the version. -/
theorem step_knows (h : step u l = some u') (ha : u'.server.Knows a) :
    u.server.Knows a ∨ a ∈ l.asks := by
  cases l with
  | call env =>
    cases h
    exact Or.inl ha
  | updateBuffers =>
    cases h
    obtain ⟨new, -, hslots, hlisteners, -⟩ := u.updateBuffers_spec
    refine Or.inl (ha.imp (fun hlistener => ?_) (hasSlot_of_visitsSlots hslots))
    rwa [hlisteners] at hlistener
  | datagram handler addr buf =>
    rw [step, toOption_eq_some] at h
    rcases handled_knows (ServerUpdate.handled h) ha with hbefore | ⟨hbuf, rfl⟩
    · exact Or.inl hbefore
    · refine Or.inr ?_
      simp [ServerStep.asks, hbuf]
  | recvError error =>
    cases h
    exact Or.inl ha
  | sendPings =>
    cases h
    obtain ⟨new, -, hslots, hlisteners, -⟩ := u.sendPings_spec
    refine Or.inl (ha.imp (fun hlistener => ?_) (hasSlot_of_visitsSlots hslots))
    rwa [hlisteners] at hlistener
  | send addr packet =>
    simp only [step, Option.bind_eq_bind, Option.bind_eq_some_iff] at h
    obtain ⟨⟨result, s', env'⟩, hsend, heq⟩ := h
    cases heq
    rw [toOption_eq_some] at hsend
    rcases send_shrinks hsend with rfl | ⟨index, client, buffers, hfind, -, rfl⟩
    · exact Or.inl ha
    · rcases ha with hlistener | hslot
      · exact Or.inl (Or.inl hlistener)
      · rcases hasSlot_set hslot with hbefore | ⟨d, hd, rfl⟩
        · exact Or.inl (Or.inr hbefore)
        · cases hd
          obtain ⟨hget, -⟩ := findClient_eq_some hfind
          exact Or.inl (Or.inr ⟨client, List.mem_of_getElem? hget, rfl⟩)
  | unlisten addr =>
    cases h
    refine Or.inl ?_
    dsimp only at ha
    unfold Server.unlisten at ha
    split_ifs at ha
    · refine ha.imp_left fun hlistener => ?_
      dsimp only at hlistener
      rw [SortedMap.get?_erase] at hlistener
      split_ifs at hlistener
      · cases hlistener
      · exact hlistener
    · exact ha
    · exact ha
  | unlistenAll =>
    cases h
    exact Or.inl (ha.imp_left fun hlistener => by cases hlistener)

/-- Handling a datagram sends to its sender only, and only if it is known or asks for the version. -/
theorem handleDatagram_sendsTo (h : u.handleDatagram handler addr buf = .ok u') :
    Env.SendsTo (fun a => a = addr ∧ (buf = [] ∨ u.server.Knows addr)) u.env u'.env := by
  cases buf with
  | nil =>
    cases h
    exact (ServerUpdate.handleVersionRequest_sendsTo handler u addr).mono
      fun a ha => ⟨ha, Or.inl rfl⟩
  | cons kind data =>
    unfold ServerUpdate.handleDatagram at h
    dsimp only at h
    cases hfind : u.server.findClient addr with
    | some found =>
      obtain ⟨index, client⟩ := found
      rw [hfind] at h
      have haddr := (findClient_eq_some hfind).2
      exact (ServerUpdate.handleClient_sendsTo h).mono
        fun a ha => ⟨ha.trans haddr, Or.inr (Or.inr (hasSlot_of_findClient hfind))⟩
    | none =>
      rw [hfind] at h
      cases hget : u.server.listeners.get? addr with
      | some buffers =>
        rw [hget] at h
        exact (ServerUpdate.handleListener_sendsTo h).mono
          fun a ha => ⟨ha, Or.inr (Or.inl (by rw [hget]; rfl))⟩
      | none =>
        rw [hget] at h
        cases h
        exact .refl _

/-- **What a step sends** goes to addresses that are known or ask for the version. -/
theorem step_sent (h : step u l = some u') :
    ∀ datagram ∈ u'.env.sent, datagram ∈ u.env.sent ∨ u.server.Knows datagram.1 ∨
      datagram.1 ∈ l.asks := by
  have hknown : ∀ {env' : Env}, Env.SendsTo (fun a => u.server.Knows a ∨ a ∈ l.asks) u.env env' →
      ∀ datagram ∈ env'.sent, datagram ∈ u.env.sent ∨ u.server.Knows datagram.1 ∨
        datagram.1 ∈ l.asks := fun hsends => hsends.mem_sent
  cases l with
  | call env =>
    cases h
    intro datagram hmem
    cases hmem
  | updateBuffers =>
    cases h
    exact hknown (u.updateBuffers_sendsTo.mono fun a ha => Or.inl (Or.inr ha))
  | datagram handler addr buf =>
    rw [step, toOption_eq_some] at h
    refine hknown ((handleDatagram_sendsTo h).mono fun a ha => ?_)
    obtain ⟨rfl, hbuf | hknows⟩ := ha
    · refine Or.inr ?_
      simp [ServerStep.asks, hbuf]
    · exact Or.inl hknows
  | recvError error =>
    cases h
    exact hknown (.refl _)
  | sendPings =>
    cases h
    exact hknown (u.sendPings_sendsTo.mono fun a ha => Or.inl (Or.inr ha))
  | send addr packet =>
    simp only [step, Option.bind_eq_bind, Option.bind_eq_some_iff] at h
    obtain ⟨⟨result, s', env'⟩, hsend, heq⟩ := h
    cases heq
    rw [toOption_eq_some] at hsend
    unfold Server.send at hsend
    cases hfind : u.server.findClient addr with
    | none =>
      rw [hfind] at hsend
      cases hsend
      exact hknown (.refl _)
    | some found =>
      obtain ⟨index, client⟩ := found
      rw [hfind] at hsend
      obtain ⟨⟨sent, buffers, env''⟩, hbuffers, hsend⟩ := exists_of_bind_ok hsend
      cases hsend
      refine hknown ((PacketBuffers.send_sendsTo hbuffers).mono fun a ha => ?_)
      rw [ha]
      exact Or.inl (Or.inr (hasSlot_of_findClient hfind))
  | unlisten addr =>
    cases h
    exact hknown (.refl _)
  | unlistenAll =>
    cases h
    exact hknown (.refl _)

/-- A datagram makes a new slot only if all the others are occupied. -/
theorem handled_length_le (h : u.Handled handler addr buf u') :
    u'.server.clients.length ≤ max u.server.clients.length u'.server.connectedCount := by
  cases h with
  | version _ _ _ _ hserver | unknown _ _ _ _ hserver | versionAnswered _ _ _ _ _ hserver =>
    rw [hserver]
    exact le_max_left _ _
  | client _ _ _ _ _ _ _ _ _ _ hserver =>
    rw [hserver]
    refine le_max_of_le_left ?_
    simp [setClient]
  | disconnected _ _ _ _ _ _ _ _ _ _ _ _ _ _ hserver =>
    rw [hserver]
    refine le_max_of_le_left ?_
    simp [disconnectClient, setClient]
  | listener _ _ _ _ _ _ _ _ _ _ hclients =>
    rw [hclients]
    exact le_max_left _ _
  | accepted _ _ buffers'' _ _ _ _ _ _ _ _ _ _ _ _ _ hclients =>
    unfold connectedCount
    rw [hclients]
    exact u.server.length_addClient_le (.new addr buffers'')

/-- A step makes a new slot only if all the others are occupied. -/
theorem step_length_le (h : step u l = some u') :
    u'.server.clients.length ≤ max u.server.clients.length u'.server.connectedCount := by
  cases l with
  | call env =>
    cases h
    exact le_max_left _ _
  | updateBuffers =>
    cases h
    refine le_max_of_le_left ?_
    unfold ServerUpdate.updateBuffers
    dsimp only
    rw [List.length_take, Vec.length_mapState]
    exact min_le_right _ _
  | datagram handler addr buf =>
    rw [step, toOption_eq_some] at h
    exact handled_length_le (ServerUpdate.handled h)
  | recvError error =>
    cases h
    exact le_max_left _ _
  | sendPings =>
    cases h
    refine le_max_of_le_left ?_
    unfold ServerUpdate.sendPings
    dsimp only
    rw [Vec.length_mapState]
  | send addr packet =>
    simp only [step, Option.bind_eq_bind, Option.bind_eq_some_iff] at h
    obtain ⟨⟨result, s', env'⟩, hsend, heq⟩ := h
    cases heq
    rw [toOption_eq_some] at hsend
    refine le_max_of_le_left ?_
    rcases send_shrinks hsend with rfl | ⟨index, client, buffers, -, -, rfl⟩
    · exact le_rfl
    · simp [setClient]
  | unlisten addr =>
    cases h
    refine le_max_of_le_left ?_
    dsimp only
    unfold Server.unlisten
    split_ifs <;> exact le_rfl
  | unlistenAll =>
    cases h
    exact le_max_left _ _

end ServerRun

/-! ## Runs -/

/-- A server, the addresses that asked for the version so far, and the largest number of clients that
were connected at the same time. -/
structure Visited (P : Packets) where
  update : ServerUpdate P
  asked : List SocketAddr
  peak : ℕ

namespace Visited

open Server

/-- The beginning. -/
def init (config : ServerConfig) (env : Env) : Visited P where
  update := ServerRun.init config env.start
  asked := []
  peak := 0

variable [Rkyv P] {v v' : Visited P}

/-- One step. -/
def step (v : Visited P) (l : ServerStep P) : Option (Visited P) := do
  let update ← ServerRun.step v.update l
  return { update, asked := v.asked ++ l.asks, peak := max v.peak update.server.connectedCount }

/-- The runs of a server with its visitors. -/
def system (P : Packets) [Rkyv P] : Lts (Visited P) (ServerStep P) where
  step := step

/-- The server knows only who asked, and it never sent to anyone else; its slots were all needed at some
time. -/
structure Expected (v : Visited P) : Prop where
  unique : v.update.server.UniqueAddrs
  known : ∀ a, v.update.server.Knows a → a ∈ v.asked
  sent : ∀ datagram ∈ v.update.env.sent, datagram.1 ∈ v.asked
  slots : v.update.server.clients.length ≤ v.peak
  peak : v.peak ≤ v.asked.toFinset.card

omit [Rkyv P] in
/-- In the beginning nobody has asked. -/
theorem expected_init (config : ServerConfig) (env : Env) : (init (P := P) config env).Expected where
  unique := uniqueAddrs_host config
  known := by
    rintro a (hlistener | ⟨client, hmem, -⟩)
    · cases hlistener
    · cases hmem
  sent := by
    intro datagram hmem
    cases hmem
  slots := le_rfl
  peak := Nat.zero_le _

/-- A step. -/
theorem Expected.step {l : ServerStep P} (h : v.Expected) (hstep : v.step l = some v') :
    v'.Expected := by
  obtain ⟨u, hu, hv⟩ := Option.bind_eq_some_iff.mp hstep
  cases hv
  have hunique := ServerRun.step_uniqueAddrs h.unique hu
  have hknown : ∀ a, u.server.Knows a → a ∈ v.asked ++ l.asks := by
    intro a ha
    rcases ServerRun.step_knows hu ha with hbefore | hasks
    · exact List.mem_append_left _ (h.known a hbefore)
    · exact List.mem_append_right _ hasks
  have hasked : v.asked.toFinset.card ≤ (v.asked ++ l.asks).toFinset.card :=
    Finset.card_le_card fun a ha => by
      rw [List.mem_toFinset] at ha ⊢
      exact List.mem_append_left _ ha
  refine ⟨hunique, hknown, fun datagram hmem => ?_, ?_, max_le (h.peak.trans hasked) ?_⟩
  · rcases ServerRun.step_sent hu datagram hmem with hbefore | hknows | hasks
    · exact List.mem_append_left _ (h.sent datagram hbefore)
    · exact List.mem_append_left _ (h.known _ hknows)
    · exact List.mem_append_right _ hasks
  · exact (ServerRun.step_length_le hu).trans (max_le_max_right _ h.slots)
  · exact connectedCount_le hunique fun a ha => hknown a (Or.inr ha)

/-- In every run. -/
theorem expected {config : ServerConfig} {env : Env} {ok : Visited P → ServerStep P → Prop}
    (hrun : (system P).GuardedRun ok (init config env) v) : v.Expected :=
  hrun.invariant (fun _ _ _ h _ hstep => h.step hstep) (expected_init config env)

/-- A client asks for the version, connects and sends a part of a packet; another address sends the same
without asking. -/
def visits : List (ServerStep DefaultPackets) :=
  [.datagram .default 5 [], .datagram .default 5 (partDatagram true (.replicate 9) 0 [1]),
    .datagram .default 6 (partDatagram true (.replicate 9) 0 [1]), .sendPings]

/-- **The server does not talk to strangers.**  In every run, every datagram that it sends is to an
address that asked for the version before or asks for it in the datagram that is answered; and these
are the only addresses that the server listens to or that are connected. -/
theorem only_to_visitors {config : ServerConfig} {env : Env} {ok : Visited P → ServerStep P → Prop}
    (hrun : (system P).GuardedRun ok (init config env) v) :
    (∀ datagram ∈ v.update.env.sent, datagram.1 ∈ v.asked) ∧
      ∀ a, v.update.server.status a ≠ .unknown → a ∈ v.asked := by
  have h := expected hrun
  refine ⟨h.sent, fun a hstatus => h.known a ?_⟩
  unfold Server.status at hstatus
  split_ifs at hstatus with hclient hlistener
  · obtain ⟨⟨index, client⟩, hfind⟩ := Option.isSome_iff_exists.mp hclient
    exact Or.inr (hasSlot_of_findClient hfind)
  · exact Or.inl hlistener
  · exact absurd rfl hstatus

/-- For instance, one address asks and another one does not. -/
theorem only_to_visitors_two :
    ∃ v, (system DefaultPackets).GuardedRun (fun _ _ => True) (init .default (.accepting 0)) v ∧
      v.update.env.sent.map Prod.fst = [5, 5, 5, 5] ∧ v.asked = [5] ∧
      ∀ datagram ∈ v.update.env.sent, datagram.1 ∈ v.asked := by
  obtain ⟨v, hrun, hv⟩ := Lts.exists_guardedRun (system DefaultPackets) (fun _ _ => True)
    (fun _ _ => true) (init .default (.accepting 0)) visits
    (fun v => decide (v.update.env.sent.map Prod.fst = [5, 5, 5, 5] ∧ v.asked = [5]))
    (fun _ _ _ _ => trivial) (by decide +kernel)
  obtain ⟨hsent, hasked⟩ := of_decide_eq_true hv
  exact ⟨v, hrun, hsent, hasked, (only_to_visitors hrun).1⟩

/-- **Slots are reused.**  In every run, the server never has more slots than clients were connected at
one time, and so never more than addresses asked for the version. -/
theorem slots_le_peak {config : ServerConfig} {env : Env} {ok : Visited P → ServerStep P → Prop}
    (hrun : (system P).GuardedRun ok (init config env) v) :
    v.update.server.clients.length ≤ v.peak ∧ v.peak ≤ v.asked.toFinset.card :=
  ⟨(expected hrun).slots, (expected hrun).peak⟩

/-- A client connects and disconnects, and another one connects after it. -/
def successors : List (ServerStep DefaultPackets) :=
  [.datagram .default 5 [], .datagram .default 5 (partDatagram true (.replicate 9) 0 [1]),
    .datagram .default 5 (partDatagram true (.replicate 8) 0 [2]),
    .datagram .default 6 [], .datagram .default 6 (partDatagram true (.replicate 9) 0 [1])]

/-- For instance, the second client gets the slot of the first one. -/
theorem slots_le_peak_one :
    ∃ v, (system DefaultPackets).GuardedRun (fun _ _ => True) (init .default (.accepting 0)) v ∧
      v.asked = [5, 6] ∧ v.update.server.status 5 = .listener ∧ v.update.server.status 6 = .client ∧
      v.peak = 1 ∧ v.update.server.clients.length ≤ v.peak := by
  obtain ⟨v, hrun, hv⟩ := Lts.exists_guardedRun (system DefaultPackets) (fun _ _ => True)
    (fun _ _ => true) (init .default (.accepting 0)) successors
    (fun v => decide (v.asked = [5, 6] ∧ v.update.server.status 5 = .listener ∧
      v.update.server.status 6 = .client ∧ v.peak = 1))
    (fun _ _ _ _ => trivial) (by decide +kernel)
  obtain ⟨hasked, hlistener, hclient, hpeak⟩ := of_decide_eq_true hv
  exact ⟨v, hrun, hasked, hlistener, hclient, hpeak, (slots_le_peak hrun).1⟩

end Visited

end Ultinet
