import Ultinet.Packet.Transfer

/-!
# Packets of one part

What the buffers of a connection do when all packets on it have a single part and the socket reports
no errors.  `Honest` describes the datagrams a peer sends that issued some packets, and `Sound` the
buffers of a side that issued some packets and hears an honest peer; `send_spec`, `update_spec` and
`handle_spec` say that sound buffers stay sound, send honest datagrams only, and when a packet is
reassembled.
-/

namespace Ultinet

/-! ## What was sent during a call -/

/-- A call sent these datagrams to an address and changed nothing else of what the socket and the
clock answer. -/
structure Env.Sends (env : Env) (addr : SocketAddr) (env' : Env) (bufs : List Bytes) : Prop where
  now : env'.now = env.now
  answer : env'.answer = env.answer
  sent : env'.sent = env.sent ++ bufs.map (Prod.mk addr)

namespace Env.Sends

variable {env env' env'' : Env} {addr : SocketAddr} {bufs bufs' : List Bytes}

/-- Nothing is sent. -/
theorem refl (env : Env) (addr : SocketAddr) : env.Sends addr env [] :=
  ⟨rfl, rfl, by simp⟩

/-- What is sent after each other. -/
theorem trans (h : env.Sends addr env' bufs) (h' : env'.Sends addr env'' bufs') :
    env.Sends addr env'' (bufs ++ bufs') :=
  ⟨h'.now.trans h.now, h'.answer.trans h.answer, by
    rw [h'.sent, h.sent, List.append_assoc, List.map_append]⟩

/-- What the environment records is sent. -/
theorem record (env : Env) (attempts : List (SocketAddr × Bytes)) (addr : SocketAddr)
    (bufs : List Bytes) : env.Sends addr (env.record attempts (bufs.map (Prod.mk addr))) bufs :=
  ⟨rfl, rfl, rfl⟩

/-- Sending does not change what the socket answers. -/
theorem noError (h : env.Sends addr env' bufs) (hno : env.NoError) : env'.NoError := by
  intro attempts datagram error
  rw [h.answer]
  exact hno attempts datagram error

end Env.Sends

/-! ## Honest datagrams -/

/-- The datagram of a packet that has only one part. -/
def onlyPart (packet : PacketId × Bytes) : Bytes :=
  partDatagram true packet.1 0 packet.2

/-- The datagram of a packet of one part is its only part. -/
theorem chunkDatagram_zero {id : PacketId} {payload : Bytes} (hone : chunkCount payload = 1) :
    chunkDatagram id payload 0 = onlyPart (id, payload) := by
  simp [chunkDatagram, onlyPart, hone, chunkPayload_zero hone]

/-- The datagrams of a peer that issued some packets: their only parts, acks of only parts, `Done`,
pings and their answers, and version requests and their answers. -/
inductive Honest (issued : List (PacketId × Bytes)) : Bytes → Prop
  | part (packet : PacketId × Bytes) (hpacket : packet ∈ issued) : Honest issued (onlyPart packet)
  | ack (id : PacketId) : Honest issued (ackDatagram id 0)
  | done (id : PacketId) : Honest issued (doneDatagram id)
  | ping (data : Bytes) : Honest issued (PacketKind.ping.toByte :: data)
  | versionRequest : Honest issued []
  | version (data : Bytes) : Honest issued (PacketKind.version.toByte :: data)

namespace Honest

variable {issued issued' : List (PacketId × Bytes)} {buf : Bytes}

/-- What is honest stays so when more packets are issued. -/
theorem mono (h : Honest issued buf) (hsub : issued ⊆ issued') : Honest issued' buf := by
  cases h with
  | part packet hpacket => exact .part packet (hsub hpacket)
  | ack id => exact .ack id
  | done id => exact .done id
  | ping data => exact .ping data
  | versionRequest => exact .versionRequest
  | version data => exact .version data

/-- An only part is as long as its header and the packet. -/
theorem length_onlyPart (packet : PacketId × Bytes) :
    (onlyPart packet).length = headerLen + packet.2.length := by
  simp [onlyPart, partDatagram]

end Honest

/-! ## Sound buffers -/

open PacketOut (Sending)

/-- The packets being sent were issued. -/
def SendsIssued (issued : List (PacketId × Bytes)) (packets : SortedMap PacketId PacketOut) : Prop :=
  ∀ id packet, packets.get? id = some packet →
    ∃ payload acked, (id, payload) ∈ issued ∧ Sending id payload acked packet

/-- The packets being received have a single part. -/
def ReceivesSingle (b : ReceivePacketBuffer) : Prop :=
  ∀ id entry, b.packets.get? id = some entry → entry.packet = none

/-- The buffers of a side that issued some packets and hears an honest peer. -/
structure Sound (issued : List (PacketId × Bytes)) (b : PacketBuffers) : Prop where
  sends : SendsIssued issued b.sendBuffer.packets
  receives : ReceivesSingle b.receiveBuffer

namespace Sound

variable {issued issued' : List (PacketId × Bytes)} {b b' : PacketBuffers} {addr : SocketAddr}
  {env env' : Env}

/-- New buffers keep nothing. -/
theorem new (issued : List (PacketId × Bytes)) (batchSize : NonZeroBatchSize) :
    Sound issued (.new batchSize) := by
  constructor
  · intro id packet hget
    cases hget
  · intro id entry hget
    cases hget

/-- Buffers stay sound when more packets are issued. -/
theorem mono (h : Sound issued b) (hsub : issued ⊆ issued') : Sound issued' b := by
  refine ⟨fun id packet hget => ?_, h.receives⟩
  obtain ⟨payload, acked, hmem, hsending⟩ := h.sends id packet hget
  exact ⟨payload, acked, hsub hmem, hsending⟩

/-- **Sending a packet** does not fail: the packet is issued, and only its datagram is sent. -/
theorem send_spec {value : List Bytes} {threshold : ℕ} {result : IoResult PacketId}
    (hb : Sound issued b) (hone : chunkCount value.flatten = 1) (hno : env.NoError)
    (h : b.send value threshold addr env = .ok (result, b', env')) :
    ∃ id bufs, result = .ok id ∧ env.Sends addr env' bufs ∧
      (∀ buf ∈ bufs, buf = onlyPart (id, value.flatten)) ∧
      Sound (issued ++ [(id, value.flatten)]) b' := by
  have hsmall : chunkCount value.flatten < seqIndexBound := by
    rw [hone]
    decide
  obtain ⟨serialized, hserialize, hcases⟩ := PacketBuffers.send_cases h
  have hparts : serialized = .vec (chunkBuffers env.newUuid.1 value.flatten) ∨
      serialized = .channel (chunkBuffers env.newUuid.1 value.flatten) := by
    rw [serializePacket_eq hsmall] at hserialize
    cases hserialize
    split_ifs <;> simp
  obtain ⟨result', attempts, bufs, hsend, hbufs, hres⟩ := PacketOut.send_spec hparts addr
    b.sendBuffer.batchSize env.newUuid.2
  have hno' : env.newUuid.2.NoError := hno
  have hsends : env.Sends addr (env.newUuid.2.record attempts (bufs.map (Prod.mk addr))) bufs :=
    ⟨rfl, rfl, rfl⟩
  have honly : ∀ buf ∈ bufs, buf = onlyPart (env.newUuid.1, value.flatten) := by
    intro buf hbuf
    obtain ⟨i, hi, rfl⟩ := hbufs buf hbuf
    have hzero : i = 0 := by omega
    rw [hzero, chunkDatagram_zero hone]
  rcases hcases with ⟨error, hout, rfl, rfl⟩ | ⟨packetOut, hout, rfl, rfl⟩
  · rw [hsend] at hout
    cases hout
    rcases hres with ⟨error', -, hfail⟩ | ⟨p, hok, -⟩
    · exact absurd hno' hfail
    · cases hok
  · rw [hsend] at hout
    cases hout
    rcases hres with ⟨error', herror, -⟩ | ⟨p, hok, hsending⟩
    · cases herror
    · cases hok
      refine ⟨env.newUuid.1, bufs, rfl, hsends, honly, ⟨fun id packet hget => ?_, hb.receives⟩⟩
      simp only [SortedMap.get?_insert] at hget
      split_ifs at hget with hid
      · cases hget
        rw [hid]
        exact ⟨value.flatten, _, by simp, hsending⟩
      · obtain ⟨payload, acked, hmem, hsending'⟩ := hb.sends id packet hget
        exact ⟨payload, acked, List.mem_append_left _ hmem, hsending'⟩

/-- What pending packets send. -/
theorem sendPending_spec {s : SendPacketBuffer} (hs : SendsIssued issued s.packets)
    (hone : ∀ packet ∈ issued, chunkCount packet.2 = 1) (hno : env.NoError) (resendDelay : ℕ)
    (addr : SocketAddr) :
    ∃ bufs, (s.sendPending resendDelay addr env).1 = .ok () ∧
      env.Sends addr (s.sendPending resendDelay addr env).2.2 bufs ∧
      (∀ buf ∈ bufs, Honest issued buf) ∧
      SendsIssued issued (s.sendPending resendDelay addr env).2.1.packets := by
  have hpass := SortedMap.retainState_invariant
    (f := SendPacketBuffer.visit resendDelay addr)
    (I := fun pass m => SendsIssued issued m ∧ pass.result = .ok () ∧
      ∃ bufs, env.Sends addr pass.env bufs ∧ ∀ buf ∈ bufs, Honest issued buf)
    (s := { batchSize := 0, count := 0, result := .ok (), env := env }) (m := s.packets) ?_
    ⟨hs, rfl, [], .refl env addr, by simp⟩
  · obtain ⟨hsends, hok, bufs, henv, hhonest⟩ := hpass
    exact ⟨bufs, hok, henv, hhonest, hsends⟩
  · rintro pass m id packet ⟨hm, hok, bufs, henv, hhonest⟩ hget
    obtain ⟨payload, acked, hmem, hsending⟩ := hm id packet hget
    have hno' := henv.noError hno
    obtain ⟨result, packet', attempts, bufs', hsend, -, -, herror, -⟩ :=
      PacketOut.sendPending_spec hsending resendDelay addr pass.env
    obtain ⟨attempts', bufs'', hvisit, hcases⟩ := Transfer.visit_spec hsending resendDelay addr pass
    have hresult : (SendPacketBuffer.visit resendDelay addr pass id packet).1.result = .ok () := by
      cases result with
      | error error => exact absurd hno' (herror error rfl)
      | ok done => simp only [SendPacketBuffer.visit, hok, hsend]
    have henv' : env.Sends addr (SendPacketBuffer.visit resendDelay addr pass id packet).1.env
        (bufs ++ bufs'') := by
      rw [hvisit]
      exact henv.trans (.record _ _ _ _)
    rcases hcases with ⟨packet'', hsome, hsending', -, -, hparts⟩ | ⟨hnone, rfl, -⟩
    · refine ⟨fun id' p hget' => ?_, hresult, _, henv', fun buf hbuf => ?_⟩
      · rw [hsome, SortedMap.get?_update] at hget'
        split_ifs at hget' with hid
        · cases hget'
          rw [hid]
          exact ⟨payload, acked, hmem, hsending'⟩
        · exact hm id' p hget'
      · rcases List.mem_append.mp hbuf with hold | hnew
        · exact hhonest buf hold
        · obtain ⟨i, hi, -, rfl⟩ := hparts buf hnew
          have hcount := hone _ hmem
          have hzero : i = 0 := by
            dsimp only at hcount
            omega
          rw [hzero, chunkDatagram_zero hcount]
          exact .part _ hmem
    · refine ⟨fun id' p hget' => ?_, hresult, _, henv', fun buf hbuf => ?_⟩
      · rw [hnone, SortedMap.get?_update] at hget'
        split_ifs at hget' with hid
        exact hm id' p hget'
      · rcases List.mem_append.mp hbuf with hold | hnew
        · exact hhonest buf hold
        · rw [List.mem_singleton.mp hnew]
          exact .done id

/-- **Updating** does not fail, and sends honest datagrams only. -/
theorem update_spec {resendDelay : ℕ} {maxMissedAcks receiveTimeout : Option ℕ}
    {result : IoResult Unit} (hb : Sound issued b)
    (hone : ∀ packet ∈ issued, chunkCount packet.2 = 1) (hno : env.NoError)
    (h : b.update resendDelay maxMissedAcks receiveTimeout addr env = (result, b', env')) :
    ∃ bufs, result = .ok () ∧ env.Sends addr env' bufs ∧ (∀ buf ∈ bufs, Honest issued buf) ∧
      Sound issued b' := by
  have hsends : SendsIssued issued
      (b.timeoutPackets maxMissedAcks receiveTimeout env).sendBuffer.packets := by
    intro id packet hget
    unfold PacketBuffers.timeoutPackets at hget
    cases maxMissedAcks with
    | none => exact hb.sends id packet hget
    | some m =>
      simp only [SendPacketBuffer.timeoutPackets, SortedMap.get?_retain,
        Option.filter_eq_some_iff] at hget
      exact hb.sends id packet hget.1
  have hreceives : ReceivesSingle
      (b.timeoutPackets maxMissedAcks receiveTimeout env).receiveBuffer := by
    intro id entry hget
    unfold PacketBuffers.timeoutPackets at hget
    cases receiveTimeout with
    | none => exact hb.receives id entry hget
    | some timeout =>
      simp only [ReceivePacketBuffer.timeoutPackets, SortedMap.get?_retain,
        Option.filter_eq_some_iff] at hget
      exact hb.receives id entry hget.1
  obtain ⟨bufs, hok, henv, hhonest, hsends'⟩ := sendPending_spec hsends hone hno resendDelay addr
  unfold PacketBuffers.update at h
  cases h
  exact ⟨bufs, hok, henv, hhonest, hsends', hreceives⟩

/-! ### Handling a datagram -/

/-- What becomes of an only part. -/
theorem handle_onlyPart (hb : Sound issued b) (packet : PacketId × Bytes) (hno : env.NoError) :
    ∃ receiveBuffer env' bufs, ReceivesSingle receiveBuffer ∧ env.Sends addr env' bufs ∧
      (∀ buf ∈ bufs, buf = ackDatagram packet.1 0) ∧
      b.handle (onlyPart packet) addr env =
        .ok (.ok (.received (if b.receiveBuffer.packets.get? packet.1 = none
          then .reassembled packet.2 else .duplicate)), { b with receiveBuffer }, env') := by
  obtain ⟨id, payload⟩ := packet
  have hkind : ∃ kind rest, onlyPart (id, payload) = kind :: rest :=
    ⟨PacketKind.lastPart.toByte, id.bytes ++ SeqIndex.toLeBytes 0 ++ payload, by
      simp [onlyPart, partDatagram, partHeader]⟩
  obtain ⟨kind, rest, hbuf⟩ := hkind
  have hhandle := b.receiveBuffer.handle_part id payload true (by decide : 0 < seqIndexBound)
    addr env
  obtain ⟨sent, hack, hsent, hres⟩ := ack_spec id 0 addr env
  have hok : (ack id 0 addr env).1 = .ok () := by
    rcases hres with ⟨error, -, hfail⟩ | hok
    · exact absurd hno hfail
    · exact hok
  have hpair : ack id 0 addr env =
      (.ok (), env.record [(addr, ackDatagram id 0)] sent) := Prod.ext hok hack
  have hmap : sent = (sent.map Prod.snd).map (Prod.mk addr) := by
    rw [List.map_map]
    conv_lhs => rw [← List.map_id sent]
    refine List.map_congr_left fun d hd => ?_
    rw [hsent d hd]
    rfl
  have hsends : env.Sends addr (env.record [(addr, ackDatagram id 0)] sent) (sent.map Prod.snd) := by
    conv_lhs => rw [hmap]
    exact .record env _ addr _
  have hacks : ∀ buf ∈ sent.map Prod.snd, buf = ackDatagram id 0 := by
    intro buf hbuf
    obtain ⟨d, hd, rfl⟩ := List.mem_map.mp hbuf
    rw [hsent d hd]
  change ∃ receiveBuffer env' bufs, _ ∧ _ ∧ _ ∧ b.handle (partDatagram true id 0 payload) addr env = _
  have hhead : partDatagram true id 0 payload = kind :: rest := hbuf
  cases hget : b.receiveBuffer.packets.get? id with
  | none =>
    refine ⟨{ b.receiveBuffer with
        packets := b.receiveBuffer.packets.insert id { lastReceive := env.now, packet := none } },
      env.record [(addr, ackDatagram id 0)] sent, sent.map Prod.snd, ?_, hsends, hacks, ?_⟩
    · intro id' entry hentry
      simp only [SortedMap.get?_insert] at hentry
      split_ifs at hentry with hid
      · cases hentry
        rfl
      · exact hb.receives id' entry hentry
    · have hreceive : b.receiveBuffer.receive true id 0 payload addr env =
          .ok (.ok (.reassembled payload), { b.receiveBuffer with
            packets := b.receiveBuffer.packets.insert id
              { lastReceive := env.now, packet := none } },
            env.record [(addr, ackDatagram id 0)] sent) := by
        simp [ReceivePacketBuffer.receive, ReceivePacketBuffer.receiveSingle, hget, hpair]
      rw [hreceive] at hhandle
      unfold PacketBuffers.handle
      rw [hhead] at hhandle ⊢
      simp only [hhandle, if_true]
      rfl
  | some entry =>
    have hentry := hb.receives id entry hget
    refine ⟨b.receiveBuffer, env.record [(addr, ackDatagram id 0)] sent, sent.map Prod.snd,
      hb.receives, hsends, hacks, ?_⟩
    have hreceive : b.receiveBuffer.receive true id 0 payload addr env =
        .ok (.ok .duplicate, b.receiveBuffer,
          env.record [(addr, ackDatagram id 0)] sent) := by
      simp [ReceivePacketBuffer.receive, ReceivePacketBuffer.receiveSingle, hget, hentry, hpair]
    rw [hreceive] at hhandle
    unfold PacketBuffers.handle
    rw [hhead] at hhandle ⊢
    simp only [hhandle, reduceCtorEq, if_false]
    rfl

/-- Acks keep the packets being sent issued. -/
theorem sends_ack {s : SendPacketBuffer} (hs : SendsIssued issued s.packets) (id : PacketId)
    (seqIndex : ℕ) : SendsIssued issued (s.ack id seqIndex).2.packets := by
  unfold SendPacketBuffer.ack
  cases hget : s.packets.get? id with
  | none => exact hs
  | some packet =>
    obtain ⟨payload, acked, hmem, hsending⟩ := hs id packet hget
    obtain ⟨result, packet', hresult, -, hcases⟩ := PacketOut.ack_spec hsending seqIndex
    have hinsert : SendsIssued issued (s.packets.insert id packet') := by
      intro id' p hget'
      rw [SortedMap.get?_insert] at hget'
      split_ifs at hget' with hid
      · cases hget'
        rw [hid]
        rcases hcases with ⟨hsending', -⟩ | ⟨_, -, -, -, hsending'⟩
        · exact ⟨payload, _, hmem, hsending'⟩
        · exact ⟨payload, _, hmem, hsending'⟩
      · exact hs id' p hget'
    simp only [hresult]
    cases result <;> exact hinsert

/-- **Handling an honest datagram** does not panic.  Only acks are sent, and a packet is reassembled
exactly if the datagram is its only part and its id is not known. -/
theorem handle_spec {peer : List (PacketId × Bytes)} {buf : Bytes} (hb : Sound issued b)
    (hbuf : Honest peer buf) (hno : env.NoError) (addr : SocketAddr) :
    ∃ result b' env' bufs, b.handle buf addr env = .ok (result, b', env') ∧ Sound issued b' ∧
      env.Sends addr env' bufs ∧ (∀ sent ∈ bufs, ∃ id, sent = ackDatagram id 0) ∧
      ((∃ packet ∈ peer, buf = onlyPart packet ∧
          b.receiveBuffer.packets.get? packet.1 = none ∧
          result = .ok (.received (.reassembled packet.2))) ∨
        ∀ bytes, result ≠ .ok (.received (.reassembled bytes))) := by
  cases hbuf with
  | part packet hpacket =>
    obtain ⟨receiveBuffer, env', bufs, hreceives, hsends, hacks, hhandle⟩ :=
      handle_onlyPart hb packet hno
    refine ⟨_, _, env', bufs, hhandle, ⟨hb.sends, hreceives⟩, hsends,
      fun sent hsent => ⟨packet.1, hacks sent hsent⟩, ?_⟩
    by_cases hget : b.receiveBuffer.packets.get? packet.1 = none
    · exact Or.inl ⟨packet, hpacket, rfl, hget, by rw [if_pos hget]⟩
    · refine Or.inr fun bytes => ?_
      rw [if_neg hget]
      simp
  | ack id =>
    have hreceive := b.receiveBuffer.handle_ack id 0 addr env
    have hack := b.sendBuffer.handle_ack id (by decide : 0 < seqIndexBound)
    have hsends := sends_ack hb.sends id 0
    obtain ⟨kind, rest, hcons⟩ : ∃ kind rest, ackDatagram id 0 = kind :: rest :=
      ⟨PacketKind.ack.toByte, id.bytes ++ SeqIndex.toLeBytes 0, by simp [ackDatagram_eq]⟩
    rcases hresult : b.sendBuffer.ack id 0 with ⟨result, sendBuffer⟩
    rw [hresult] at hack hsends
    rw [hcons] at hreceive hack ⊢
    cases result with
    | error error =>
      exact ⟨.error (.ack ⟨id, error⟩), { b with sendBuffer }, env, [], by
        simp only [PacketBuffers.handle, hreceive, bind, Except.bind, hack]; rfl,
        ⟨hsends, hb.receives⟩, .refl env addr, by simp, Or.inr (by simp)⟩
    | ok duplicate =>
      exact ⟨.ok (.ack duplicate), { b with sendBuffer }, env, [], by
        simp only [PacketBuffers.handle, hreceive, bind, Except.bind, hack]; rfl,
        ⟨hsends, hb.receives⟩, .refl env addr, by simp, Or.inr (by simp)⟩
  | done id =>
    have hreceive := b.receiveBuffer.handle_done id addr env
    obtain ⟨kind, rest, hcons⟩ : ∃ kind rest, doneDatagram id = kind :: rest :=
      ⟨PacketKind.done.toByte, id.bytes, by simp [doneDatagram_eq]⟩
    rw [hcons] at hreceive ⊢
    refine ⟨.ok (.done (b.receiveBuffer.packets.get? id).isSome),
      { b with receiveBuffer := { b.receiveBuffer with
        packets := b.receiveBuffer.packets.erase id } }, env, [], by
        simp only [PacketBuffers.handle, hreceive, bind, Except.bind]; rfl,
      ⟨hb.sends, fun id' entry hget => ?_⟩, .refl env addr, by simp, Or.inr (by simp)⟩
    simp only [SortedMap.get?_erase] at hget
    split_ifs at hget with hid
    exact hb.receives id' entry hget
  | ping data =>
    exact ⟨.error (.unexpectedKind PacketKind.ping.toByte), b, env, [], by
      simp [PacketBuffers.handle, ReceivePacketBuffer.handle_eq, ReceivePacketBuffer.handleFields,
        SendPacketBuffer.handle_eq, SendPacketBuffer.handleFields, bind,
        Except.bind]; rfl, hb, .refl env addr, by simp, Or.inr (by simp)⟩
  | versionRequest =>
    exact ⟨.error .empty, b, env, [], rfl, hb, .refl env addr, by simp, Or.inr (by simp)⟩
  | version data =>
    exact ⟨.error (.unexpectedKind PacketKind.version.toByte), b, env, [], by
      simp [PacketBuffers.handle, ReceivePacketBuffer.handle_eq, ReceivePacketBuffer.handleFields,
        SendPacketBuffer.handle_eq, SendPacketBuffer.handleFields, bind,
        Except.bind]; rfl, hb, .refl env addr, by simp, Or.inr (by simp)⟩

end Sound

end Ultinet
