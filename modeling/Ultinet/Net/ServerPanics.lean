import Ultinet.Net.ServerResend
import Ultinet.Packet.ReceivePanics

/-!
# Where the server panics

A server has no panic of its own, and sending panics only if a packet has 2^32 parts or more.  What
remains are the parts that make receiving panic, and the packets that make their own validation panic:
a step of a server panics exactly if it handles such a datagram of a peer whose packets the server
receives (`ServerRun.panics_iff`).
-/

namespace Ultinet

variable {P : Packets} [Rkyv P]

/-- What a handler answers has fewer than 2^32 parts. -/
structure ServerHandler.Fits (handler : ServerHandler P) : Prop where
  status : ∀ events addr query, chunkCount (Rkyv.serializeServer
    (.status (handler.query events addr query) : ServerConnectionPacket P)).flatten < seqIndexBound
  accept : ∀ events addr connect accept, handler.connect events addr connect = .accept accept →
    chunkCount (Rkyv.serializeServer (.accept accept : ServerConnectionPacket P)).flatten <
      seqIndexBound
  reject : ∀ events addr connect reject, handler.connect events addr connect = .reject reject →
    chunkCount (Rkyv.serializeServer (.reject reject : ServerConnectionPacket P)).flatten <
      seqIndexBound

/-- What is sent in a step has fewer than 2^32 parts. -/
def ServerStep.Fits : ServerStep P → Prop
  | .datagram handler _ _ => handler.Fits
  | .send _ packet =>
      chunkCount (Rkyv.serializeServer (.user packet : ServerConnectionPacket P)).flatten <
        seqIndexBound
  | _ => True

omit [Rkyv P] in
/-- Sending a packet of fewer than 2^32 parts does not panic. -/
theorem PacketBuffers.send_ne_error (b : PacketBuffers) {value : List Bytes} (threshold : ℕ)
    (addr : SocketAddr) (env : Env) {abort : Abort} (hfits : chunkCount value.flatten < seqIndexBound) :
    b.send value threshold addr env ≠ .error abort := by
  intro h
  have hserialize := send_eq_error h
  rw [serializePacket_eq hfits] at hserialize
  cases hserialize

namespace Server

variable {s : Server} {addr : SocketAddr}

omit [Rkyv P] in
/-- The buffers of a connected client. -/
theorem buffersOf_of_client {index : ℕ} {client : ClientConnection}
    (h : s.findClient addr = some (index, client)) : s.buffersOf addr = some client.buffers := by
  rw [buffersOf, h]

omit [Rkyv P] in
/-- The buffers of a peer that is not connected. -/
theorem buffersOf_of_listener (h : s.findClient addr = none) :
    s.buffersOf addr = s.listeners.get? addr := by
  rw [buffersOf, h]

end Server

namespace ServerUpdate

variable {u u' : ServerUpdate P} {handler : ServerHandler P} {buffers : PacketBuffers}
  {addr : SocketAddr} {buf : Bytes} {abort : Abort}

theorem sendPacket_ne_error {packet : ServerConnectionPacket P}
    (hfits : chunkCount (Rkyv.serializeServer packet).flatten < seqIndexBound) :
    u.sendPacket buffers addr packet ≠ .error abort := by
  intro h
  unfold sendPacket at h
  refine buffers.send_ne_error _ addr u.env hfits ((bind_eq_error_iff fun sent hrest => ?_).mp h)
  obtain ⟨result, buffers', env⟩ := sent
  cases result <;> cases hrest

/-- The packets of a connected client make nothing panic. -/
theorem handleClientPacket_ne_error {index : ℕ} {client : ClientConnection}
    {packet : ClientConnectionPacket P} (hfits : handler.Fits) :
    u.handleClientPacket handler index client packet ≠ .error abort := by
  intro h
  unfold handleClientPacket at h
  cases packet with
  | query query =>
    refine sendPacket_ne_error (hfits.status _ _ _) ((bind_eq_error_iff fun sent hrest => ?_).mp h)
    obtain ⟨result, buffers, v⟩ := sent
    cases result <;> cases hrest
  | connect connect => cases h
  | disconnect disconnect => cases h
  | user packet => cases h

/-- The packets of a client that is not connected make nothing panic. -/
theorem handleListenerPacket_ne_error {packet : ClientConnectionPacket P} (hfits : handler.Fits) :
    u.handleListenerPacket handler addr buffers packet ≠ .error abort := by
  intro h
  unfold handleListenerPacket at h
  cases packet with
  | query query =>
    refine sendPacket_ne_error (hfits.status _ _ _) ((bind_eq_error_iff fun sent hrest => ?_).mp h)
    cases hrest
  | connect connect =>
    dsimp only at h
    cases hanswer : handler.connect u.events addr connect with
    | accept accept =>
      rw [hanswer] at h
      refine sendPacket_ne_error (hfits.accept _ _ _ _ hanswer)
        ((bind_eq_error_iff fun sent hrest => ?_).mp h)
      obtain ⟨result, buffers, v⟩ := sent
      cases result <;> cases hrest
    | reject reject =>
      rw [hanswer] at h
      refine sendPacket_ne_error (hfits.reject _ _ _ _ hanswer)
        ((bind_eq_error_iff fun sent hrest => ?_).mp h)
      cases hrest
  | disconnect disconnect => cases h
  | user packet => cases h

/-- Handling a datagram with some buffers panics where the buffers do. -/
theorem handleBuffers_of_eq_error (h : buffers.handle buf addr u.env = .error abort) :
    u.handleBuffers buffers addr buf = .error abort := by
  unfold handleBuffers
  rw [h]
  rfl

/-- Handling a datagram with some buffers panics where the buffers do, and where the packet that is
completed is validated. -/
theorem handleBuffers_panics_iff :
    (∃ abort, u.handleBuffers buffers addr buf = .error abort) ↔
      (∃ abort, buffers.handle buf addr u.env = .error abort) ∨
        buffers.BreaksCheck (Rkyv.checkClient (P := P)) buf addr u.env := by
  constructor
  · rintro ⟨abort, h⟩
    unfold handleBuffers at h
    cases hhandle : buffers.handle buf addr u.env with
    | error abort' => exact Or.inl ⟨abort', rfl⟩
    | ok handled =>
      obtain ⟨result, buffers', env⟩ := handled
      rw [hhandle] at h
      dsimp only [bind, Except.bind] at h
      split at h
      case h_4 payload =>
        -- validation is all that is left
        refine Or.inr ⟨payload, buffers', env, abort, hhandle,
          (bind_eq_error_iff fun checked hrest => ?_).mp h⟩
        cases checked <;> cases hrest
      all_goals cases h
  · rintro (⟨abort, h⟩ | ⟨payload, buffers', env, abort, hhandle, hcheck⟩)
    · exact ⟨abort, handleBuffers_of_eq_error h⟩
    · refine ⟨abort, ?_⟩
      unfold handleBuffers
      rw [hhandle]
      dsimp only [bind, Except.bind]
      rw [hcheck]

/-- A datagram panics only if the sender has buffers, and handling it with these does. -/
theorem handleDatagram_eq_error (hfits : handler.Fits)
    (h : u.handleDatagram handler addr buf = .error abort) :
    ∃ buffers, u.server.buffersOf addr = some buffers ∧
      u.handleBuffers buffers addr buf = .error abort := by
  unfold handleDatagram at h
  cases buf with
  | nil => cases h
  | cons kind data =>
    dsimp only at h
    cases hfind : u.server.findClient addr with
    | some found =>
      obtain ⟨index, client⟩ := found
      obtain ⟨-, rfl⟩ := Server.findClient_eq_some hfind
      rw [hfind] at h
      dsimp only at h
      refine ⟨client.buffers, Server.buffersOf_of_client hfind, ?_⟩
      unfold handleClient at h
      split_ifs at h
      refine (bind_eq_error_iff fun handled hrest => ?_).mp h
      obtain ⟨packet, buffers, v⟩ := handled
      cases packet with
      | none => cases hrest
      | some packet => exact handleClientPacket_ne_error hfits hrest
    | none =>
      rw [hfind] at h
      dsimp only at h
      cases hget : u.server.listeners.get? addr with
      | none =>
        rw [hget] at h
        cases h
      | some buffers =>
        rw [hget] at h
        dsimp only at h
        refine ⟨buffers, (Server.buffersOf_of_listener hfind).trans hget, ?_⟩
        unfold handleListener at h
        refine (bind_eq_error_iff fun handled hrest => ?_).mp h
        obtain ⟨packet, buffers', v⟩ := handled
        cases packet with
        | none => cases hrest
        | some packet => exact handleListenerPacket_ne_error hfits hrest

/-- If handling a datagram with the buffers of its sender panics then so does the server, but for a
ping of a connected client, which they do not get. -/
theorem handleDatagram_of_eq_error {kind : UInt8} {data : Bytes}
    (hping : PacketKind.tryFrom kind ≠ some .ping) (hbuffers : u.server.buffersOf addr = some buffers)
    (hhandle : u.handleBuffers buffers addr (kind :: data) = .error abort) :
    u.handleDatagram handler addr (kind :: data) = .error abort := by
  unfold handleDatagram
  dsimp only
  cases hfind : u.server.findClient addr with
  | some found =>
    obtain ⟨index, client⟩ := found
    obtain ⟨-, rfl⟩ := Server.findClient_eq_some hfind
    rw [Server.buffersOf_of_client hfind] at hbuffers
    cases hbuffers
    dsimp only
    rw [handleClient, if_neg hping, hhandle]
    rfl
  | none =>
    rw [Server.buffersOf_of_listener hfind] at hbuffers
    dsimp only
    rw [hbuffers]
    dsimp only
    rw [handleListener, hhandle]
    rfl

/-- A datagram that completes no packet does nothing but change the buffers of its sender. -/
theorem handleBuffers_incomplete {result : Except HandlePacketError PacketHandling}
    {buffers' : PacketBuffers} {env : Env}
    (h : buffers.handle buf addr u.env = .ok (result, buffers', env))
    (hnot : ∀ payload, result ≠ .ok (.received (.reassembled payload))) :
    ∃ u', u.handleBuffers buffers addr buf = .ok (none, buffers', u') ∧ u'.server = u.server := by
  unfold handleBuffers
  rw [h]
  simp only [bind, Except.bind, pure, Except.pure]
  split
  · exact ⟨_, rfl, rfl⟩
  · exact ⟨_, rfl, rfl⟩
  · exact ⟨_, rfl, rfl⟩
  · rename_i payload
    exact absurd rfl (hnot payload)
  · exact ⟨_, rfl, rfl⟩
  · exact ⟨_, rfl, rfl⟩

/-- So it stays a peer with buffers. -/
theorem handleDatagram_incomplete (handler : ServerHandler P) {kind : UInt8} {data : Bytes}
    {result : Except HandlePacketError PacketHandling} {buffers' : PacketBuffers} {env : Env}
    (hping : PacketKind.tryFrom kind ≠ some .ping) (hbuffers : u.server.buffersOf addr = some buffers)
    (h : buffers.handle (kind :: data) addr u.env = .ok (result, buffers', env))
    (hnot : ∀ payload, result ≠ .ok (.received (.reassembled payload)))
    (hunique : ∀ u', u.handleDatagram handler addr (kind :: data) = .ok u' →
      u'.server.UniqueAddrs) :
    ∃ u', u.handleDatagram handler addr (kind :: data) = .ok u' ∧
      u'.server.buffersOf addr = some buffers' := by
  obtain ⟨v, hhandle, hserver⟩ := handleBuffers_incomplete h hnot
  cases hfind : u.server.findClient addr with
  | some found =>
    obtain ⟨index, client⟩ := found
    obtain ⟨hget, rfl⟩ := Server.findClient_eq_some hfind
    rw [Server.buffersOf_of_client hfind] at hbuffers
    cases hbuffers
    have hdatagram : u.handleDatagram handler client.clientAddr (kind :: data) =
        .ok (v.setClient index { client with buffers := buffers' }) := by
      unfold handleDatagram
      rw [hfind]
      dsimp only
      rw [handleClient, if_neg hping, hhandle]
      rfl
    refine ⟨_, hdatagram, ?_⟩
    have hslot : (v.setClient index { client with buffers := buffers' }).server.clients[index]? =
        some (some { client with buffers := buffers' }) := by
      rw [setClient_server, hserver, Server.getElem?_setClient _
        (List.getElem?_eq_some_iff.mp hget).1, if_pos rfl]
    exact Server.buffersOf_of_client (Server.findClient_of_slot (hunique _ hdatagram) hslot)
  | none =>
    rw [Server.buffersOf_of_listener hfind] at hbuffers
    have hdatagram : u.handleDatagram handler addr (kind :: data) =
        .ok (v.setListener addr buffers') := by
      unfold handleDatagram
      rw [hfind]
      dsimp only
      rw [hbuffers]
      dsimp only
      rw [handleListener, hhandle]
      rfl
    refine ⟨_, hdatagram, ?_⟩
    have hnone : (v.setListener addr buffers').server.findClient addr = none := by
      rw [← hfind, ← hserver]
      rfl
    exact (Server.buffersOf_of_listener hnone).trans (SortedMap.get?_insert_self _ _ _)

end ServerUpdate

namespace ServerRun

open Server

variable {u : ServerUpdate P}

omit [Rkyv P] in
/-- **The rule for the packets being received.**  Whatever the buffers of a connection do, every packet
being received is what some parts made of it. -/
theorem step_allFed (addr : SocketAddr) (b b' : PacketBuffers) (hb : b.AllFed)
    (h : PacketBuffers.Step addr b b') : b'.AllFed := by
  cases h with
  | handle h => exact hb.handle h
  | send h => exact hb.send h
  | update h => exact hb.update h

/-- The buffers of every peer were fed with parts. -/
theorem allFed_of_buffersOf {config : ServerConfig} {env : Env} (hrun : Run (init config env) u)
    {addr : SocketAddr} {buffers : PacketBuffers} (h : u.server.buffersOf addr = some buffers) :
    buffers.AllFed := by
  have hall := hrun.allBuffers PacketBuffers.allFed_new step_allFed
  cases hfind : u.server.findClient addr with
  | some found =>
    obtain ⟨index, client⟩ := found
    rw [buffersOf_of_client hfind] at h
    cases h
    exact hall.clients index client (findClient_eq_some hfind).1
  | none =>
    rw [buffersOf_of_listener hfind] at h
    exact hall.listeners addr buffers h

/-- Only sending and handling datagrams may panic, and sending only because of large packets. -/
theorem exists_datagram_of_step_eq_none {l : ServerStep P} (hfits : l.Fits) (h : step u l = none) :
    ∃ handler addr buf abort, l = .datagram handler addr buf ∧ handler.Fits ∧
      u.handleDatagram handler addr (recv buf) = .error abort := by
  cases l with
  | datagram handler addr buf =>
    rw [step] at h
    cases hhandle : u.handleDatagram handler addr (recv buf) with
    | error abort => exact ⟨handler, addr, buf, abort, rfl, hfits, hhandle⟩
    | ok u' =>
      rw [hhandle] at h
      cases h
  | send addr packet =>
    exfalso
    rw [step] at h
    cases hsend : u.server.send addr packet u.env with
    | error abort =>
      unfold Server.send at hsend
      split at hsend
      · cases hsend
      · rename_i index client hfind
        cases hbuffers : client.buffers.send (Rkyv.serializeServer (.user packet))
            u.server.config.connection.backgroundSerializationThreshold addr u.env with
        | error abort' => exact client.buffers.send_ne_error _ addr u.env hfits hbuffers
        | ok sent =>
          rw [hbuffers] at hsend
          cases hsend
    | ok sent =>
      rw [hsend] at h
      cases h
  | call env => cases h
  | updateBuffers => cases h
  | recvError error => cases h
  | sendPings => cases h
  | unlisten addr => cases h
  | unlistenAll => cases h

/-- **Where a server panics.**  In every run, a step panics exactly if it handles a datagram of a peer
whose packets the server receives, and

* it is a part of a packet of several parts, and the block of 256 parts it belongs to and all below
  were received already, or it is the last one of all the parts there can be, or
* it completes a packet whose own validation panics. -/
theorem panics_iff {config : ServerConfig} {env : Env} (hrun : Run (init config env) u)
    {l : ServerStep P} (hfits : l.Fits) :
    step u l = none ↔ ∃ handler addr buf buffers, l = .datagram handler addr buf ∧
      u.server.buffersOf addr = some buffers ∧ (buffers.Exhausts (recv buf) ∨
        buffers.BreaksCheck (Rkyv.checkClient (P := P)) (recv buf) addr u.env) := by
  constructor
  · intro h
    obtain ⟨handler, addr, buf, abort, rfl, hhandler, hpanic⟩ :=
      exists_datagram_of_step_eq_none hfits h
    obtain ⟨buffers, hbuffers, hhandle⟩ := ServerUpdate.handleDatagram_eq_error hhandler hpanic
    have hfed := allFed_of_buffersOf hrun hbuffers
    exact ⟨handler, addr, buf, buffers, rfl, hbuffers,
      (ServerUpdate.handleBuffers_panics_iff.mp ⟨abort, hhandle⟩).imp_left
        (PacketBuffers.handle_panics_iff hfed (recv buf) addr u.env).mp⟩
  · rintro ⟨handler, addr, buf, buffers, rfl, hbuffers, hbreaks⟩
    have hfed := allFed_of_buffersOf hrun hbuffers
    obtain ⟨abort, hhandle⟩ := ServerUpdate.handleBuffers_panics_iff.mpr
      (hbreaks.imp_left (PacketBuffers.handle_panics_iff hfed (recv buf) addr u.env).mpr)
    have hcons : ∃ kind data, recv buf = kind :: data ∧ PacketKind.tryFrom kind ≠ some .ping := by
      rcases hbreaks with hexhausts | hcheck
      · exact hexhausts.exists_eq_cons
      · exact hcheck.exists_eq_cons
    obtain ⟨kind, data, hbuf, hping⟩ := hcons
    rw [hbuf] at hhandle
    rw [step, hbuf, ServerUpdate.handleDatagram_of_eq_error hping hbuffers hhandle]
    rfl

theorem fits_default : (ServerHandler.default : ServerHandler DefaultPackets).Fits where
  status := fun _ _ _ => (by decide : chunkCount [0] < seqIndexBound)
  accept := fun _ _ _ _ _ => (by decide : chunkCount [1] < seqIndexBound)
  reject := fun _ _ _ _ h => by cases h

/-- For instance, a server that was asked for its version. -/
theorem panics_iff_asked : ∃ u : ServerUpdate DefaultPackets,
    Run (init .default (.accepting 0)) u ∧ ∀ buf,
      (step u (.datagram .default 5 buf) = none ↔ ∃ handler addr buf' buffers,
        ServerStep.datagram .default 5 buf = .datagram handler addr buf' ∧
          u.server.buffersOf addr = some buffers ∧ (buffers.Exhausts (recv buf') ∨
            buffers.BreaksCheck (Rkyv.checkClient (P := DefaultPackets)) (recv buf') addr
              u.env)) := by
  have hrun : Run (P := DefaultPackets) (init .default (.accepting 0))
      (ServerUpdate.handleVersionRequest .default (init .default (.accepting 0)) 5) :=
    .single (l := .datagram .default 5 []) rfl
  exact ⟨_, hrun, fun buf => panics_iff hrun fits_default⟩

/-- The peer that asked sends a packet with the tag of `User`, and the check of `NoPacket` panics. -/
example : step (P := DefaultPackets)
    (ServerUpdate.handleVersionRequest .default (init .default (.accepting 0)) 5)
    (.datagram .default 5 (partDatagram true (.replicate 9) 0 [3])) = none := by
  refine Option.isNone_iff_eq_none.mp ?_
  decide +kernel

/-! ## How a peer makes the server panic -/

/-- The buffers of a peer were given the first parts of a packet. -/
def Given (u : ServerUpdate P) (addr : SocketAddr) (id : PacketId) (n : ℕ) : Prop :=
  ∃ buffers packet results, u.server.buffersOf addr = some buffers ∧
    (∀ env, (buffers.receiveBuffer.touchEntry id env).packet = some packet) ∧
    ReassembledPacket.new.feed (ReassembledPacket.leadingParts n) = .ok (results, packet)

omit [Rkyv P] in
/-- The datagram of a part without any bytes. -/
theorem exists_recv_partDatagram (id : PacketId) (i : ℕ) :
    ∃ data, recv (partDatagram false id i []) = PacketKind.part.toByte :: data ∧
      partDatagram false id i [] = PacketKind.part.toByte :: data := by
  have hlen : (partDatagram false id i []).length ≤ packetBufferSize := by
    rw [partDatagram, List.length_append, length_partHeader]
    decide
  rw [recv_of_length_le hlen]
  exact ⟨id.bytes ++ SeqIndex.toLeBytes i ++ [], by simp [partDatagram, partHeader],
    by simp [partDatagram, partHeader]⟩

/-- Handle parts of a packet that come from an address. -/
def handleParts (handler : ServerHandler P) (addr : SocketAddr) (id : PacketId) (u : ServerUpdate P)
    (is : List ℕ) : Exec (ServerUpdate P) :=
  is.foldlM (fun u i => u.handleDatagram handler addr (recv (partDatagram false id i []))) u

variable {handler : ServerHandler P} {addr : SocketAddr} {id : PacketId} {n : ℕ}

/-- The last one of some parts. -/
theorem handleParts_append {v : ServerUpdate P} {is : List ℕ} {i : ℕ}
    (h : handleParts handler addr id u is = .ok v) :
    handleParts handler addr id u (is ++ [i]) =
      v.handleDatagram handler addr (recv (partDatagram false id i [])) := by
  unfold handleParts at h ⊢
  rw [List.foldlM_append, h]
  exact bind_pure (m := Except Abort) _

/-- One part more. -/
theorem Given.next (handler : ServerHandler P) (hunique : u.server.UniqueAddrs) (hn : n < 256)
    (h : Given u addr id n) :
    ∃ u', u.handleDatagram handler addr (recv (partDatagram false id n [])) = .ok u' ∧
      u'.server.UniqueAddrs ∧ Given u' addr id (n + 1) := by
  obtain ⟨buffers, packet, results, hbuffers, htouch, hfeed⟩ := h
  obtain ⟨packet', hreceive, hfeed'⟩ := ReassembledPacket.receive_leadingPart hn hfeed
  obtain ⟨result, buffers', env', hhandle, htouch', hnot⟩ :=
    buffers.handle_pending addr u.env (hn.trans (by decide)) htouch hreceive
  obtain ⟨data, hrecv, hbuf⟩ := exists_recv_partDatagram id n
  have hunique' : ∀ u', u.handleDatagram handler addr (PacketKind.part.toByte :: data) = .ok u' →
      u'.server.UniqueAddrs := by
    intro u' hu'
    rw [← hrecv] at hu'
    exact step_uniqueAddrs (l := .datagram handler addr (partDatagram false id n [])) hunique
      (toOption_eq_some.mpr hu')
  rw [hbuf] at hhandle
  rw [hrecv]
  obtain ⟨u', hdatagram, hbuffers'⟩ := ServerUpdate.handleDatagram_incomplete handler (by decide)
    hbuffers hhandle hnot hunique'
  exact ⟨u', hdatagram, hunique' u' hdatagram, buffers', packet', _, hbuffers', htouch', hfeed'⟩

/-- The first 256 parts do not make the server panic. -/
theorem Given.leading (handler : ServerHandler P) (hunique : u.server.UniqueAddrs)
    (h : Given u addr id 0) (hn : n ≤ 256) :
    ∃ u', handleParts handler addr id u (List.range n) = .ok u' ∧ u'.server.UniqueAddrs ∧
      Given u' addr id n := by
  induction n with
  | zero => exact ⟨u, rfl, hunique, h⟩
  | succ n ih =>
    obtain ⟨v, hparts, hv, hgiven⟩ := ih (by omega)
    obtain ⟨u', hpart, hu', hgiven'⟩ := hgiven.next handler hv (by omega)
    refine ⟨u', ?_, hu', hgiven'⟩
    rw [List.range_succ, handleParts_append hparts, hpart]

/-- **A peer can make the server panic.**  Whatever happened before, a peer whose packets the server
receives makes it panic by sending the first 256 parts of a packet with an unknown id and the first of
them again, whatever becomes of the acks. -/
theorem can_crash {config : ServerConfig} {env : Env} (hrun : Run (init config env) u)
    (handler : ServerHandler P) (addr : SocketAddr) (id : PacketId) {buffers : PacketBuffers}
    (hbuffers : u.server.buffersOf addr = some buffers)
    (hunknown : buffers.receiveBuffer.packets.get? id = none) :
    ∃ abort, handleParts handler addr id u (List.range 256 ++ [0]) = .error abort := by
  have hgiven : Given u addr id 0 := by
    refine ⟨buffers, .new, [], hbuffers, fun env => ?_, rfl⟩
    unfold ReceivePacketBuffer.touchEntry
    rw [hunknown]
  obtain ⟨v, hparts, -, buffers', packet, results, hbuffers', htouch, hfeed⟩ :=
    hgiven.leading handler (hrun.uniqueAddrs (uniqueAddrs_host config)) le_rfl
  obtain ⟨abort, hpanic⟩ := ReassembledPacket.receive_leadingPart_again hfeed
  have hhandle : buffers'.handle (partDatagram false id 0 []) addr v.env = .error abort := by
    rw [PacketBuffers.handle_part buffers' addr v.env false id (by decide) [],
      PacketBuffers.receive, ReceivePacketBuffer.receive_eq_error_iff.mpr
        ⟨by simp, packet, htouch v.env, hpanic⟩]
    rfl
  obtain ⟨data, hrecv, hbuf⟩ := exists_recv_partDatagram id 0
  rw [hbuf] at hhandle
  refine ⟨abort, ?_⟩
  rw [handleParts_append hparts, hrecv]
  exact ServerUpdate.handleDatagram_of_eq_error (by decide) hbuffers'
    (ServerUpdate.handleBuffers_of_eq_error hhandle)

/-- For instance, one that asked for the version. -/
theorem can_crash_asked : ∃ (u : ServerUpdate DefaultPackets) (abort : Abort),
    Run (init .default (.accepting 0)) u ∧
      handleParts .default 5 (.replicate 7) u (List.range 256 ++ [0]) = .error abort := by
  have hrun : Run (P := DefaultPackets) (init .default (.accepting 0))
      (ServerUpdate.handleVersionRequest .default (init .default (.accepting 0)) 5) :=
    .single (l := .datagram .default 5 []) rfl
  obtain ⟨abort, hcrash⟩ := can_crash hrun .default 5 (.replicate 7) rfl rfl
  exact ⟨_, abort, hrun, hcrash⟩

end ServerRun

end Ultinet
