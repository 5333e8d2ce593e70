import Ultinet.Packet.AnyParts
import Ultinet.Packet.Dispatch

/-!
# Handling that fails

A datagram whose handling fails should leave the packet buffers as they were.  It does so except in
three cases: the ack of a part fails after the part was recorded, a part of a packet of several parts
names a packet of one part and refreshes its timestamp, or an ack names a part that is not available
and resets the counter of missed acks.

`FailsCleanly b buf addr env` says that none of these cases applies, in terms of the datagram, the
state before the call and the answer of the socket to the ack; `handle_unchanged_iff` shows that this
is exactly when a failure leaves no trace.
-/

namespace Ultinet

open BitWindow ReassembledPacket

/-! ## Parts -/

/-- The socket fails to send the ack of a part. -/
def AckFails (id : PacketId) (seqIndex : ℕ) (addr : SocketAddr) (env : Env) : Prop :=
  ∃ error, env.answer env.attempts (addr, ackDatagram id seqIndex) = .failed error

/-- The ack of a part fails exactly if the socket does. -/
theorem ack_cases (id : PacketId) (seqIndex : ℕ) (addr : SocketAddr) (env : Env) :
    ((∃ error env', ack id seqIndex addr env = (.error error, env')) ∧
        AckFails id seqIndex addr env) ∨
      ((∃ env', ack id seqIndex addr env = (.ok (), env')) ∧ ¬AckFails id seqIndex addr env) := by
  unfold ack AckFails
  rcases env.send_cases addr (ackDatagram id seqIndex) with
    ⟨hsend, hanswer⟩ | ⟨hsend, hanswer⟩ | ⟨error, hsend, hanswer⟩ <;>
  rw [hsend, hanswer]
  · exact Or.inr ⟨⟨_, rfl⟩, by simp⟩
  · exact Or.inr ⟨⟨_, rfl⟩, by simp⟩
  · exact Or.inl ⟨⟨_, _, rfl⟩, error, rfl⟩

namespace ReceivePacketBuffer

/-- If receiving the part fails then nothing changes: the ack of a new packet does not fail, the
timestamp of a packet that is touched is that of the call, and the ack of one of several parts fails
only if the part says nothing new. -/
def PartFailsCleanly (b : ReceivePacketBuffer) (last : Bool) (id : PacketId) (seqIndex : ℕ)
    (addr : SocketAddr) (env : Env) : Prop :=
  match b.packets.get? id with
  | none => ¬AckFails id seqIndex addr env
  | some entry =>
      (last = true ∧ seqIndex = 0) ∨
        match entry.packet with
        | none => entry.lastReceive = env.now
        | some packet =>
            ¬AckFails id seqIndex addr env ∨
              entry.lastReceive = env.now ∧ packet.Has seqIndex ∧
                (last = true → packet.maxIndex = some seqIndex)

variable {b b' : ReceivePacketBuffer} {last : Bool} {id : PacketId} {seqIndex : ℕ}
  {payload : Bytes} {addr : SocketAddr} {env env' : Env}
  {result : Except PacketReceiveError ReceivedPacket}

/-- Buffers that differ in one entry at most are the same if that entry is. -/
theorem insert_eq_iff (b : ReceivePacketBuffer) (id : PacketId) (entry : PacketIn) :
    ({ b with packets := b.packets.insert id entry } : ReceivePacketBuffer) = b ↔
      b.packets.get? id = some entry := by
  rw [← SortedMap.insert_eq_self_iff]
  constructor
  · exact fun h => congrArg packets h
  · intro h
    rw [h]

/-- The only part of a packet: it is recorded before it is acked. -/
theorem receiveSingle_unchanged_iff
    (h : b.receiveSingle id seqIndex payload addr env = (result, b', env')) :
    ((∃ error, result = .error error) → b' = b) ↔
      (b.packets.get? id = none → ¬AckFails id seqIndex addr env) := by
  unfold receiveSingle at h
  cases hentry : b.packets.get? id with
  | none =>
    rw [hentry] at h
    have hne : ({ b with packets := b.packets.insert id ⟨env.now, none⟩ } :
        ReceivePacketBuffer) ≠ b := by
      rw [ne_eq, insert_eq_iff, hentry]
      exact fun h => by cases h
    rcases ack_cases id seqIndex addr env with ⟨⟨error, env'', hack⟩, hfails⟩ | ⟨⟨env'', hack⟩, hok⟩
    · simp only [hack] at h
      cases h
      exact iff_of_false (fun hsame => hne (hsame ⟨error, rfl⟩)) fun hno => hno rfl hfails
    · simp only [hack] at h
      cases h
      exact iff_of_true (by rintro ⟨error, herror⟩; cases herror) fun _ => hok
  | some entry =>
    rw [hentry] at h
    have hsame : b' = b := by
      obtain ⟨lastReceive, packet⟩ := entry
      cases packet with
      | none =>
        dsimp only at h
        split at h <;> cases h <;> rfl
      | some packet =>
        cases h
        rfl
    exact iff_of_true (fun _ => hsame) (by simp)

/-- One of several parts: the timestamp is refreshed and the part is recorded before it is acked. -/
theorem receivePart_unchanged_iff
    (h : b.receivePart last id seqIndex payload addr env = .ok (result, b', env')) :
    ((∃ error, result = .error error) → b' = b) ↔
      match b.packets.get? id with
      | none => ¬AckFails id seqIndex addr env
      | some entry =>
          match entry.packet with
          | none => entry.lastReceive = env.now
          | some packet =>
              ¬AckFails id seqIndex addr env ∨
                entry.lastReceive = env.now ∧ packet.Has seqIndex ∧
                  (last = true → packet.maxIndex = some seqIndex) := by
  unfold receivePart touchEntry at h
  cases hentry : b.packets.get? id with
  | none =>
    rw [hentry] at h
    dsimp only at h
    cases hreceive : ReassembledPacket.new.receive last seqIndex payload with
    | error abort => simp [hreceive, bind, Except.bind] at h
    | ok received =>
      obtain ⟨received, packet⟩ := received
      simp only [hreceive, bind, Except.bind] at h
      have hne : ({ b with packets := b.packets.insert id ⟨env.now, some packet⟩ } :
          ReceivePacketBuffer) ≠ b := by
        rw [ne_eq, insert_eq_iff, hentry]
        exact fun h => by cases h
      rcases ack_cases id seqIndex addr env with
        ⟨⟨error, env'', hack⟩, hfails⟩ | ⟨⟨env'', hack⟩, hok⟩
      · simp only [hack] at h
        cases h
        exact iff_of_false (fun hsame => hne (hsame ⟨error, rfl⟩)) fun hno => hno hfails
      · simp only [hack] at h
        cases h
        exact iff_of_true (by rintro ⟨error, herror⟩; cases herror) hok
  | some entry =>
    obtain ⟨lastReceive, packet⟩ := entry
    rw [hentry] at h
    cases packet with
    | none =>
      -- the packet has only one part, but its timestamp was refreshed already
      cases h
      dsimp only
      constructor
      · intro hsame
        have := (insert_eq_iff b id ⟨env.now, none⟩).mp (hsame ⟨_, rfl⟩)
        rw [hentry] at this
        cases this
        rfl
      · rintro rfl -
        exact (insert_eq_iff b id ⟨env.now, none⟩).mpr hentry
    | some packet =>
      dsimp only at h ⊢
      cases hreceive : packet.receive last seqIndex payload with
      | error abort => simp [hreceive, bind, Except.bind] at h
      | ok received =>
        obtain ⟨received, packet'⟩ := received
        simp only [hreceive, bind, Except.bind] at h
        have hsame_iff : ({ b with packets := b.packets.insert id ⟨env.now, some packet'⟩ } :
            ReceivePacketBuffer) = b ↔ lastReceive = env.now ∧ packet.Has seqIndex ∧
              (last = true → packet.maxIndex = some seqIndex) := by
          have hpacket : packet' = packet ↔ packet.Has seqIndex ∧
              (last = true → packet.maxIndex = some seqIndex) := by
            by_cases hhas : packet.Has seqIndex
            · have hle : packet.firstPending ≤ seqIndex := by
                by_contra hlt
                rw [receive_drained _ _ (by omega)] at hreceive
                cases hreceive
              rw [receive_known _ _ hle hhas] at hreceive
              cases hreceive
              obtain ⟨bytes, chunks, first, count, maxIndex⟩ := packet
              cases last <;> simp [hhas, eq_comm]
            · refine iff_of_false (fun heq => hhas ?_) fun hno => hhas hno.1
              rw [heq] at hreceive
              exact ((receive_unknown hhas hreceive).has seqIndex).mpr (Or.inl rfl)
          rw [insert_eq_iff, hentry, Option.some.injEq, PacketIn.mk.injEq, Option.some.injEq,
            ← hpacket, eq_comm (a := packet)]
        rcases ack_cases id seqIndex addr env with
          ⟨⟨error, env'', hack⟩, hfails⟩ | ⟨⟨env'', hack⟩, hok⟩
        · simp only [hack] at h
          cases h
          constructor
          · exact fun hsame => Or.inr (hsame_iff.mp (hsame ⟨error, rfl⟩))
          · rintro (hno | hclean) -
            · exact absurd hfails hno
            · exact hsame_iff.mpr hclean
        · simp only [hack] at h
          cases h
          exact iff_of_true (by rintro ⟨error, herror⟩; cases herror) (Or.inl hok)

/-- **Parts.**  A part that is not received leaves no trace exactly if it fails cleanly. -/
theorem receive_unchanged_iff
    (h : b.receive last id seqIndex payload addr env = .ok (result, b', env')) :
    ((∃ error, result = .error error) → b' = b) ↔
      b.PartFailsCleanly last id seqIndex addr env := by
  unfold receive at h
  unfold PartFailsCleanly
  by_cases hsingle : last = true ∧ seqIndex = 0
  · rw [if_pos hsingle] at h
    rw [receiveSingle_unchanged_iff (Except.ok.inj h)]
    cases b.packets.get? id with
    | none => simp
    | some entry => simp [hsingle]
  · rw [if_neg hsingle] at h
    rw [receivePart_unchanged_iff h]
    cases b.packets.get? id with
    | none => exact Iff.rfl
    | some entry => simp only [hsingle, false_or]

end ReceivePacketBuffer

/-! ## Acks -/

namespace SendPacketBuffer

/-- If the ack is rejected then nothing changes: the part it names is available, or no acks were
missed. -/
def AckFailsCleanly (b : SendPacketBuffer) (id : PacketId) (seqIndex : ℕ) : Prop :=
  ∀ packet, b.packets.get? id = some packet →
    packet.packetQueue.packets.length ≤ seqIndex → packet.missedAcks = 0

/-- **Acks.**  A rejected ack leaves no trace exactly if it fails cleanly. -/
theorem ack_unchanged_iff (b : SendPacketBuffer) (id : PacketId) (seqIndex : ℕ) :
    ((∃ error, (b.ack id seqIndex).1 = .error error) → (b.ack id seqIndex).2 = b) ↔
      b.AckFailsCleanly id seqIndex := by
  unfold ack AckFailsCleanly
  cases hget : b.packets.get? id with
  | none => exact iff_of_true (fun _ => rfl) (by simp)
  | some packet =>
    dsimp only
    by_cases hlong : packet.packetQueue.packets.length ≤ seqIndex
    · have hack : packet.ack seqIndex = (.error ⟨seqIndex⟩, { packet with missedAcks := 0 }) := by
        simp only [PacketOut.ack, PacketQueue.ack, List.getElem?_eq_none hlong]
      have hsame_iff : ({ b with packets := b.packets.insert id { packet with missedAcks := 0 } } :
          SendPacketBuffer) = b ↔ packet.missedAcks = 0 := by
        have hpackets : ({ b with packets := b.packets.insert id { packet with missedAcks := 0 } } :
            SendPacketBuffer) = b ↔
              b.packets.insert id { packet with missedAcks := 0 } = b.packets := by
          constructor
          · exact fun h => congrArg packets h
          · intro h
            rw [h]
        rw [hpackets, SortedMap.insert_eq_self_iff, hget, Option.some.injEq]
        constructor
        · intro h
          rw [h]
        · intro h
          rw [← h]
      rw [hack]
      simp only [hsame_iff]
      constructor
      · intro hsame packet' hpacket' _
        cases hpacket'
        exact hsame ⟨_, rfl⟩
      · exact fun hclean _ => hclean packet rfl hlong
    · have hget' := List.getElem?_eq_getElem (not_le.mp hlong)
      refine iff_of_true ?_ fun packet' hpacket' hlong' => ?_
      · rintro ⟨error, herror⟩
        simp only [PacketOut.ack, PacketQueue.ack, hget'] at herror
        split_ifs at herror
      · cases hpacket'
        exact absurd hlong' hlong

end SendPacketBuffer

/-! ## Datagrams -/

namespace PacketBuffers

/-- If handling the datagram fails then nothing changes. -/
def FailsCleanly (b : PacketBuffers) (buf : Bytes) (addr : SocketAddr) (env : Env) : Prop :=
  (∀ last id seqIndex payload, seqIndex < seqIndexBound →
      buf = partDatagram last id seqIndex payload →
      b.receiveBuffer.PartFailsCleanly last id seqIndex addr env) ∧
    ∀ id seqIndex rest, seqIndex < seqIndexBound → buf = ackDatagram id seqIndex ++ rest →
      b.sendBuffer.AckFailsCleanly id seqIndex

variable {b b' : PacketBuffers} {buf : Bytes} {addr : SocketAddr} {env env' : Env}
  {result : Except HandlePacketError PacketHandling}

/-- A part that is not handled leaves no trace exactly if receiving it fails cleanly. -/
theorem handle_part_unchanged_iff {last : Bool} {id : PacketId} {seqIndex : ℕ}
    (hseq : seqIndex < seqIndexBound) {payload : Bytes}
    (h : b.handle (partDatagram last id seqIndex payload) addr env = .ok (result, b', env')) :
    ((∃ error, result = .error error) → b' = b) ↔
      b.receiveBuffer.PartFailsCleanly last id seqIndex addr env := by
  rw [b.handle_part addr env last id hseq payload] at h
  unfold receive at h
  cases hreceive : b.receiveBuffer.receive last id seqIndex payload addr env with
  | error abort => simp [hreceive, Except.map] at h
  | ok received =>
    obtain ⟨received, receiveBuffer, env''⟩ := received
    rw [hreceive] at h
    cases h
    rw [← ReceivePacketBuffer.receive_unchanged_iff hreceive]
    have hbuffers : ({ b with receiveBuffer } : PacketBuffers) = b ↔
        receiveBuffer = b.receiveBuffer := by
      constructor
      · exact fun h => congrArg PacketBuffers.receiveBuffer h
      · intro h
        rw [h]
    rw [hbuffers]
    refine imp_congr ?_ Iff.rfl
    cases received with
    | error error => exact iff_of_true ⟨_, rfl⟩ ⟨_, rfl⟩
    | ok received =>
      exact iff_of_false (by rintro ⟨error, herror⟩; cases herror)
        (by rintro ⟨error, herror⟩; cases herror)

/-- An ack that is not handled leaves no trace exactly if it fails cleanly. -/
theorem handle_ack_unchanged_iff {id : PacketId} {seqIndex : ℕ} (hseq : seqIndex < seqIndexBound)
    {rest : Bytes}
    (h : b.handle (ackDatagram id seqIndex ++ rest) addr env = .ok (result, b', env')) :
    ((∃ error, result = .error error) → b' = b) ↔
      b.sendBuffer.AckFailsCleanly id seqIndex := by
  rw [b.handle_ack addr env id hseq rest] at h
  cases h
  rw [← SendPacketBuffer.ack_unchanged_iff]
  unfold PacketBuffers.ack
  rcases b.sendBuffer.ack id seqIndex with ⟨result, sendBuffer⟩
  have hbuffers : ({ b with sendBuffer } : PacketBuffers) = b ↔ sendBuffer = b.sendBuffer := by
    constructor
    · exact fun h => congrArg PacketBuffers.sendBuffer h
    · intro h
      rw [h]
  dsimp only
  rw [hbuffers]
  refine imp_congr ?_ Iff.rfl
  cases result with
  | error error => exact iff_of_true ⟨_, rfl⟩ ⟨_, rfl⟩
  | ok duplicate =>
    exact iff_of_false (by rintro ⟨error, herror⟩; cases herror)
      (by rintro ⟨error, herror⟩; cases herror)

/-- **Failed handling.**  A datagram whose handling fails leaves the packet buffers as they were
exactly if it fails cleanly. -/
theorem handle_unchanged_iff (h : b.handle buf addr env = .ok (result, b', env')) :
    ((∃ error, result = .error error) → b' = b) ↔ b.FailsCleanly buf addr env := by
  constructor
  · intro hsame
    refine ⟨fun last id seqIndex payload hseq hbuf => ?_, fun id seqIndex rest hseq hbuf => ?_⟩
    · subst hbuf
      exact (handle_part_unchanged_iff hseq h).mp hsame
    · subst hbuf
      exact (handle_ack_unchanged_iff hseq h).mp hsame
  · rintro ⟨hpart, hack⟩ ⟨error, rfl⟩
    by_cases hwell : WellFormed buf
    · rcases hwell.cases with ⟨last, id, seqIndex, payload, hseq, rfl⟩ |
        ⟨id, seqIndex, rest, hseq, rfl⟩ | ⟨id, rest, rfl⟩
      · exact (handle_part_unchanged_iff hseq h).mpr (hpart _ _ _ _ hseq rfl) ⟨error, rfl⟩
      · exact (handle_ack_unchanged_iff hseq h).mpr (hack _ _ _ hseq rfl) ⟨error, rfl⟩
      · rw [b.handle_done addr env id rest] at h
        cases h
    · obtain ⟨error', -, hhandle⟩ := b.handle_of_not_wellFormed addr env hwell
      rw [hhandle] at h
      cases h
      rfl

/-- For instance, the first one of several parts comes again at once, and its ack cannot be sent. -/
theorem handle_unchanged_again : ∃ (b : PacketBuffers) (entry : PacketIn) (packet : ReassembledPacket)
    (error : HandlePacketError) (env' : Env),
    b.receiveBuffer.packets.get? (.replicate 1) = some entry ∧ entry.packet = some packet ∧
      packet.Has 0 ∧
      b.handle (partDatagram false (.replicate 1) 0 [1, 2, 3]) 7 (.unreachable 0) =
        .ok (.error error, b, env') ∧
      b.FailsCleanly (partDatagram false (.replicate 1) 0 [1, 2, 3]) 7 (.unreachable 0) := by
  set packet : ReassembledPacket :=
    { ReassembledPacket.new with payload := [1, 2, 3], receivedChunks := [true], receivedCount := 1 }
  set b : PacketBuffers :=
    { PacketBuffers.new .min with
      receiveBuffer := { packets := SortedMap.empty.insert (.replicate 1) ⟨0, some packet⟩ } }
  have hhandle : b.handle (partDatagram false (.replicate 1) 0 [1, 2, 3]) 7 (.unreachable 0) =
      .ok (.error _, b, _) := rfl
  exact ⟨b, _, packet, _, _, rfl, rfl, Or.inr ⟨le_rfl, rfl⟩, hhandle,
    (handle_unchanged_iff hhandle).mp fun _ => rfl⟩

/-- A part whose ack cannot be sent is recorded all the same. -/
theorem handle_records_failed_part : ∃ error b' env',
    (new .min).handle (partDatagram true (.replicate 1) 0 [1, 2, 3]) 7 (.unreachable 0) =
        .ok (.error error, b', env') ∧
      (new .min).receiveBuffer.packets.get? (.replicate 1) = none ∧
      (b'.receiveBuffer.packets.get? (.replicate 1)).isSome = true :=
  ⟨_, _, _, rfl, rfl, rfl⟩

end PacketBuffers

end Ultinet
