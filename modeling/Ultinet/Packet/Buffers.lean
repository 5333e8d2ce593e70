import Ultinet.Lib.SortedMap
import Ultinet.Packet.Queue
import Ultinet.Packet.Receive

/-!
# The packet buffers of a connection

`packet.rs`: the packets being sent and the packets being received, each by their id, and the
dispatch of incoming datagrams to them.

Functions that may panic have results in `Exec`.  A call that panics leaves no state behind.
-/

namespace Ultinet

/-! ## Reading the fields -/

/-- The id in a datagram, as both decoders read it: the slice has to be there, and its conversion is
unwrapped. -/
def readId (buf : Bytes) : Exec (Except HandlePacketError PacketId) :=
  match slice buf packetKindSize (packetKindSize + packetIdSize) with
  | none => .ok (.error .malformed)
  | some bytes =>
      match Uuid.fromSlice bytes with
      | some id => .ok (.ok id)
      | none => .error (.panic "called `Option::unwrap()` on a `None` value")

/-- The sequence index in a datagram, as both decoders read it. -/
def readSeqIndex (buf : Bytes) : Exec (Except HandlePacketError ℕ) :=
  let idEnd := packetKindSize + packetIdSize
  match slice buf idEnd (idEnd + seqIndexSize) with
  | none => .ok (.error .malformed)
  | some bytes =>
      match SeqIndex.fromLeBytes bytes with
      | some seqIndex => .ok (.ok seqIndex)
      | none => .error (.panic "called `Result::unwrap()` on an `Err` value: TryFromSliceError(())")

section Fields

variable {buf : Bytes}

theorem length_of_slice {bytes : Bytes} {start stop : ℕ} (h : slice buf start stop = some bytes) :
    bytes.length = stop - start ∧ stop ≤ buf.length := by
  unfold slice at h
  split_ifs at h with hbounds
  cases h
  rw [List.length_take, List.length_drop]
  omega

theorem slice_eq_none {start stop : ℕ} (h : buf.length < stop) :
    slice buf start stop = none := by
  unfold slice
  rw [if_neg (by omega)]

/-- The conversion of a slice of the size of an id does not fail. -/
theorem isSome_fromSlice {bytes : Bytes}
    (h : slice buf packetKindSize (packetKindSize + packetIdSize) = some bytes) :
    ∃ id : PacketId, id.bytes = bytes ∧ Uuid.fromSlice bytes = some id := by
  have hlen : bytes.length = 16 := by
    rw [(length_of_slice h).1]
    rfl
  exact ⟨⟨bytes, hlen⟩, rfl, by simp [Uuid.fromSlice, hlen]⟩

/-- The bytes that a sequence index was read from are its little-endian bytes. -/
theorem SeqIndex.toLeBytes_fromLeBytes {bytes : Bytes} {s : ℕ}
    (h : SeqIndex.fromLeBytes bytes = some s) : SeqIndex.toLeBytes s = bytes := by
  unfold SeqIndex.fromLeBytes at h
  split at h
  · rename_i b0 b1 b2 b3
    have h0 := b0.toNat_lt
    have h1 := b1.toNat_lt
    have h2 := b2.toNat_lt
    have h3 := b3.toNat_lt
    simp only [Option.some.injEq] at h
    simp only [SeqIndex.toLeBytes, List.cons.injEq, and_true, ← UInt8.toNat_inj,
      UInt8.toNat_ofNat']
    omega
  · cases h

/-- Four bytes are read as a sequence index. -/
theorem SeqIndex.exists_fromLeBytes {bytes : Bytes} (hlen : bytes.length = 4) :
    ∃ s < seqIndexBound, SeqIndex.toLeBytes s = bytes ∧ SeqIndex.fromLeBytes bytes = some s := by
  have hread : ∃ s, SeqIndex.fromLeBytes bytes = some s := by
    match bytes, hlen with
    | [b0, b1, b2, b3], _ => exact ⟨_, rfl⟩
  obtain ⟨s, hs⟩ := hread
  exact ⟨s, SeqIndex.fromLeBytes_lt hs, SeqIndex.toLeBytes_fromLeBytes hs, hs⟩

/-- Reading an id does not panic, so it is malformed exactly if there is none. -/
theorem readId_eq (buf : Bytes) : readId buf = .ok
    (((slice buf packetKindSize (packetKindSize + packetIdSize)).bind Uuid.fromSlice).elim
      (.error .malformed) .ok) := by
  unfold readId
  cases hslice : slice buf packetKindSize (packetKindSize + packetIdSize) with
  | none => rfl
  | some bytes =>
    obtain ⟨id, -, hid⟩ := isSome_fromSlice hslice
    simp only [Option.bind_some, hid, Option.elim_some]

/-- Reading a sequence index does not panic, so it is malformed exactly if there is none. -/
theorem readSeqIndex_eq (buf : Bytes) : readSeqIndex buf = .ok
    (((slice buf (packetKindSize + packetIdSize)
      (packetKindSize + packetIdSize + seqIndexSize)).bind SeqIndex.fromLeBytes).elim
      (.error .malformed) .ok) := by
  unfold readSeqIndex
  dsimp only
  cases hslice : slice buf (packetKindSize + packetIdSize)
      (packetKindSize + packetIdSize + seqIndexSize) with
  | none => rfl
  | some bytes =>
    obtain ⟨seqIndex, -, -, hseq⟩ := SeqIndex.exists_fromLeBytes (length_of_slice hslice).1
    simp only [Option.bind_some, hseq, Option.elim_some]

end Fields

/-! ## Packets being received -/

/-- A packet being received; `packet` is `none` if it has only one part. -/
structure PacketIn where
  lastReceive : ℕ
  packet : Option ReassembledPacket

/-- What handling a datagram did to the packets being received. -/
inductive ReceivedPacketHandling
  | ack (received : ReceivedPacket)
  | done (knownPacket : Bool)
  | unhandled
  deriving DecidableEq

/-- The packets being received. -/
structure ReceivePacketBuffer where
  packets : SortedMap PacketId PacketIn

namespace ReceivePacketBuffer

/-- No packets. -/
def new : ReceivePacketBuffer where
  packets := .empty

/-- Receive the only part of a packet. -/
def receiveSingle (b : ReceivePacketBuffer) (id : PacketId) (seqIndex : ℕ) (payload : Bytes)
    (addr : SocketAddr) (env : Env) :
    Except PacketReceiveError ReceivedPacket × ReceivePacketBuffer × Env :=
  match b.packets.get? id with
  | none =>
      let b := { b with packets := b.packets.insert id { lastReceive := env.now, packet := none } }
      match ack id seqIndex addr env with
      | (.error error, env) => (.error error, b, env)
      | (.ok (), env) => (.ok (.reassembled payload), b, env)
  | some entry =>
      match entry.packet with
      | none =>
          match ack id seqIndex addr env with
          | (.error error, env) => (.error error, b, env)
          | (.ok (), env) => (.ok .duplicate, b, env)
      | some _ => (.error ⟨id, .mismatch⟩, b, env)

/-- The entry of a packet of several parts: the one it has, or a new one. -/
def touchEntry (b : ReceivePacketBuffer) (id : PacketId) (env : Env) : PacketIn :=
  match b.packets.get? id with
  | some entry => { entry with lastReceive := env.now }
  | none => { lastReceive := env.now, packet := some .new }

/-- Receive one of several parts of a packet. -/
def receivePart (b : ReceivePacketBuffer) (last : Bool) (id : PacketId) (seqIndex : ℕ)
    (payload : Bytes) (addr : SocketAddr) (env : Env) :
    Exec (Except PacketReceiveError ReceivedPacket × ReceivePacketBuffer × Env) :=
  let entry := b.touchEntry id env
  match entry.packet with
  | none => .ok (.error ⟨id, .mismatch⟩, { b with packets := b.packets.insert id entry }, env)
  | some packet => do
      let (receivedPacket, packet) ← packet.receive last seqIndex payload
      let b := { b with packets := b.packets.insert id { entry with packet := some packet } }
      match ack id seqIndex addr env with
      | (.error error, env) => return (.error error, b, env)
      | (.ok (), env) => return (.ok receivedPacket, b, env)

/-- Reassemble a packet: take one more part of it, and ack the part. -/
def receive (b : ReceivePacketBuffer) (last : Bool) (id : PacketId) (seqIndex : ℕ)
    (payload : Bytes) (addr : SocketAddr) (env : Env) :
    Exec (Except PacketReceiveError ReceivedPacket × ReceivePacketBuffer × Env) :=
  if last ∧ seqIndex = 0 then .ok (b.receiveSingle id seqIndex payload addr env)
  else b.receivePart last id seqIndex payload addr env

/-- Forget a packet.  The result tells whether it was known. -/
def done (b : ReceivePacketBuffer) (id : PacketId) : Bool × ReceivePacketBuffer :=
  ((b.packets.get? id).isSome, { b with packets := b.packets.erase id })

/-- Handle the datagrams that concern packets being received. -/
def handle (b : ReceivePacketBuffer) (buf : Bytes) (addr : SocketAddr) (env : Env) :
    Exec (Except HandlePacketError ReceivedPacketHandling × ReceivePacketBuffer × Env) :=
  match buf.head? with
  | none => .ok (.error .empty, b, env)
  | some kind =>
      match PacketKind.tryFrom kind with
      | some .part | some .lastPart => do
          let last := PacketKind.tryFrom kind = some .lastPart
          match ← readSeqIndex buf with
          | .error error => return (.error error, b, env)
          | .ok seqIndex =>
              match sliceFrom buf (packetKindSize + packetIdSize + seqIndexSize) with
              | none => return (.error .malformed, b, env)
              | some payload =>
                  match ← readId buf with
                  | .error error => return (.error error, b, env)
                  | .ok id =>
                      match ← b.receive last id seqIndex payload addr env with
                      | (.error error, b, env) => return (.error (.receive error), b, env)
                      | (.ok received, b, env) => return (.ok (.ack received), b, env)
      | some .done => do
          match ← readId buf with
          | .error error => return (.error error, b, env)
          | .ok id =>
              let (knownPacket, b) := b.done id
              return (.ok (.done knownPacket), b, env)
      | _ => .ok (.ok .unhandled, b, env)

/-- What `handle` comes to: a field can be read, or it is not there and the datagram is malformed. -/
def handleFields (b : ReceivePacketBuffer) (buf : Bytes) (addr : SocketAddr) (env : Env) :
    Exec (Except HandlePacketError ReceivedPacketHandling × ReceivePacketBuffer × Env) :=
  let idStart := packetKindSize
  let idEnd := idStart + packetIdSize
  let id := (slice buf idStart idEnd).bind Uuid.fromSlice
  match buf.head? with
  | none => .ok (.error .empty, b, env)
  | some kind =>
      match PacketKind.tryFrom kind with
      | some .part | some .lastPart =>
          let seqIndexEnd := idEnd + seqIndexSize
          match (slice buf idEnd seqIndexEnd).bind SeqIndex.fromLeBytes, sliceFrom buf seqIndexEnd,
            id with
          | some seqIndex, some payload, some id => do
              let last := PacketKind.tryFrom kind = some .lastPart
              match ← b.receive last id seqIndex payload addr env with
              | (.error error, b, env) => return (.error (.receive error), b, env)
              | (.ok received, b, env) => return (.ok (.ack received), b, env)
          | _, _, _ => .ok (.error .malformed, b, env)
      | some .done =>
          match id with
          | some id =>
              let (knownPacket, b) := b.done id
              .ok (.ok (.done knownPacket), b, env)
          | none => .ok (.error .malformed, b, env)
      | _ => .ok (.ok .unhandled, b, env)

theorem handle_eq (b : ReceivePacketBuffer) (buf : Bytes) (addr : SocketAddr) (env : Env) :
    b.handle buf addr env = b.handleFields buf addr env := by
  unfold handle handleFields
  dsimp only
  rw [readId_eq, readSeqIndex_eq]
  cases (slice buf (packetKindSize + packetIdSize)
      (packetKindSize + packetIdSize + seqIndexSize)).bind SeqIndex.fromLeBytes <;>
    cases (slice buf packetKindSize (packetKindSize + packetIdSize)).bind Uuid.fromSlice <;>
    cases sliceFrom buf (packetKindSize + packetIdSize + seqIndexSize) <;>
    rfl

/-- Forget the packets that did not receive anything for a long time. -/
def timeoutPackets (b : ReceivePacketBuffer) (timeout : ℕ) (env : Env) : ReceivePacketBuffer :=
  { b with packets := b.packets.retain fun _ packet => elapsed env.now packet.lastReceive < timeout }

end ReceivePacketBuffer

/-! ## Packets being sent -/

/-- What handling a datagram did to the packets being sent. -/
inductive SentPacketHandling
  | ack (duplicate : Bool)
  | unhandled
  deriving DecidableEq

/-- The packets being sent. -/
structure SendPacketBuffer where
  batchSize : NonZeroBatchSize
  packets : SortedMap PacketId PacketOut

namespace SendPacketBuffer

/-- No packets. -/
def new (initialBatchSize : NonZeroBatchSize) : SendPacketBuffer where
  batchSize := initialBatchSize
  packets := .empty

/-- Mark a part of a packet as acked. -/
def ack (b : SendPacketBuffer) (id : PacketId) (seqIndex : ℕ) :
    Except PacketAckErrorKind Bool × SendPacketBuffer :=
  match b.packets.get? id with
  | none => (.error .invalidPacketId, b)
  | some packet =>
      let (result, packet) := packet.ack seqIndex
      let b := { b with packets := b.packets.insert id packet }
      match result with
      | .error error => (.error (.seqIndexAckedBeforeSent error), b)
      | .ok duplicate => (.ok duplicate, b)

/-- Handle the datagrams that concern packets being sent. -/
def handle (b : SendPacketBuffer) (buf : Bytes) :
    Exec (Except HandlePacketError SentPacketHandling × SendPacketBuffer) :=
  match buf.head? with
  | none => .ok (.error .empty, b)
  | some kind =>
      match PacketKind.tryFrom kind with
      | some .ack => do
          match ← readId buf with
          | .error error => return (.error error, b)
          | .ok id =>
              match ← readSeqIndex buf with
              | .error error => return (.error error, b)
              | .ok seqIndex =>
                  match b.ack id seqIndex with
                  | (.error kind, b) => return (.error (.ack ⟨id, kind⟩), b)
                  | (.ok duplicate, b) => return (.ok (.ack duplicate), b)
      | _ => .ok (.ok .unhandled, b)

/-- What `handle` comes to: a field can be read, or it is not there and the datagram is malformed. -/
def handleFields (b : SendPacketBuffer) (buf : Bytes) :
    Except HandlePacketError SentPacketHandling × SendPacketBuffer :=
  match buf.head? with
  | none => (.error .empty, b)
  | some kind =>
      match PacketKind.tryFrom kind with
      | some .ack =>
          let idStart := packetKindSize
          let idEnd := idStart + packetIdSize
          let seqIndexEnd := idEnd + seqIndexSize
          match (slice buf idStart idEnd).bind Uuid.fromSlice,
            (slice buf idEnd seqIndexEnd).bind SeqIndex.fromLeBytes with
          | some id, some seqIndex =>
              match b.ack id seqIndex with
              | (.error kind, b) => (.error (.ack ⟨id, kind⟩), b)
              | (.ok duplicate, b) => (.ok (.ack duplicate), b)
          | _, _ => (.error .malformed, b)
      | _ => (.ok .unhandled, b)

theorem handle_eq (b : SendPacketBuffer) (buf : Bytes) :
    b.handle buf = .ok (b.handleFields buf) := by
  unfold handle handleFields
  dsimp only
  rw [readId_eq, readSeqIndex_eq]
  cases buf.head? with
  | none => rfl
  | some byte =>
    dsimp only
    cases PacketKind.tryFrom byte with
    | none => rfl
    | some kind =>
      cases kind with
      | ack =>
        cases (slice buf packetKindSize (packetKindSize + packetIdSize)).bind Uuid.fromSlice with
        | none => rfl
        | some id =>
          cases (slice buf (packetKindSize + packetIdSize)
              (packetKindSize + packetIdSize + seqIndexSize)).bind SeqIndex.fromLeBytes with
          | none => rfl
          | some seqIndex =>
            dsimp only [Option.elim_some, bind, Except.bind]
            rcases b.ack id seqIndex with ⟨result, b'⟩
            cases result <;> rfl
      | version | ping | part | lastPart | done | firstUpdate => rfl

/-- Send a new packet.  The result is its id. -/
def send (b : SendPacketBuffer) (packet : List Bytes) (backgroundSerializationThreshold : ℕ)
    (addr : SocketAddr) (env : Env) : Exec (IoResult PacketId × SendPacketBuffer × Env) := do
  let (id, env) := env.newUuid
  let serialized ← serializePacket id backgroundSerializationThreshold packet
  match PacketOut.send serialized addr b.batchSize env with
  | (.error error, env) => return (.error error, b, env)
  | (.ok packet, env) => return (.ok id, { b with packets := b.packets.insert id packet }, env)

/-- What `sendPending` carries along while it visits the packets. -/
structure Pass where
  batchSize : ℕ
  count : ℕ
  result : IoResult Unit
  env : Env

/-- Visit one packet: send its pending parts, unless an earlier packet failed.  A packet that is
done is dropped. -/
def visit (resendDelay : ℕ) (addr : SocketAddr) (pass : Pass) (id : PacketId) (packet : PacketOut) :
    Pass × Option PacketOut :=
  let pass := { pass with
    batchSize := pass.batchSize + packet.batchSize.val
    count := pass.count + 1 }
  match pass.result with
  | .error _ => (pass, some packet)
  | .ok () =>
      match packet.sendPending id resendDelay addr pass.env with
      | (.ok done, packet, env) => ({ pass with env }, if done then none else some packet)
      | (.error error, packet, env) => ({ pass with result := .error error, env }, some packet)

/-- Send the pending parts of all packets. -/
def sendPending (b : SendPacketBuffer) (resendDelay : ℕ) (addr : SocketAddr) (env : Env) :
    IoResult Unit × SendPacketBuffer × Env :=
  let (pass, packets) := b.packets.retainState (visit resendDelay addr)
    { batchSize := 0, count := 0, result := .ok (), env }
  let batchSize :=
    if pass.count = 0 then b.batchSize
    else (NonZeroBatchSize.new (min (pass.batchSize / pass.count) batchSizeMax)).getD .min
  (pass.result, { batchSize, packets }, pass.env)

/-- Forget the packets that did not get acks for a long time. -/
def timeoutPackets (b : SendPacketBuffer) (maxMissedAcks : ℕ) : SendPacketBuffer :=
  { b with packets := b.packets.retain fun _ packet => packet.missedAcks ≤ maxMissedAcks }

end SendPacketBuffer

/-! ## Handling well-formed datagrams -/

section Datagrams

variable (id : PacketId) {seqIndex : ℕ} (payload : Bytes)

/-- The id in a datagram. -/
theorem slice_id (kind : UInt8) (id : PacketId) (rest : Bytes) :
    (slice ([kind] ++ id.bytes ++ rest) packetKindSize (packetKindSize + packetIdSize)).bind
      Uuid.fromSlice = some id := by
  have hid := id.length_bytes
  rw [slice_append [kind] id.bytes rest (by simp [packetKindSize])
    (by simp [hid, packetKindSize, packetIdSize])]
  exact Uuid.fromSlice_bytes id

/-- The sequence index in a datagram. -/
theorem slice_seqIndex (kind : UInt8) (id : PacketId) (hseq : seqIndex < seqIndexBound)
    (rest : Bytes) :
    (slice ([kind] ++ id.bytes ++ (SeqIndex.toLeBytes seqIndex ++ rest))
      (packetKindSize + packetIdSize) (packetKindSize + packetIdSize + seqIndexSize)).bind
      SeqIndex.fromLeBytes = some seqIndex := by
  have hid := id.length_bytes
  rw [← List.append_assoc, slice_append ([kind] ++ id.bytes) (SeqIndex.toLeBytes seqIndex) rest
    (by simp [hid, packetKindSize, packetIdSize])
    (by simp [hid, packetKindSize, packetIdSize, seqIndexSize])]
  exact SeqIndex.fromLeBytes_toLeBytes hseq

/-- Handling a part. -/
theorem ReceivePacketBuffer.handle_part (b : ReceivePacketBuffer) (last : Bool)
    (hseq : seqIndex < seqIndexBound) (addr : SocketAddr) (env : Env) :
    b.handle (partDatagram last id seqIndex payload) addr env =
      (b.receive last id seqIndex payload addr env).map fun received =>
        ((received.1.mapError .receive).map .ack, received.2) := by
  have hsplit : partDatagram last id seqIndex payload =
      [(if last then PacketKind.lastPart else PacketKind.part).toByte] ++ id.bytes ++
        (SeqIndex.toLeBytes seqIndex ++ payload) := by
    simp [partDatagram, partHeader]
  have hhead : (partDatagram last id seqIndex payload).head? =
      some (if last then PacketKind.lastPart else PacketKind.part).toByte := by
    rw [hsplit]
    rfl
  have hid := slice_id (if last then PacketKind.lastPart else PacketKind.part).toByte id
    (SeqIndex.toLeBytes seqIndex ++ payload)
  have hindex := slice_seqIndex (if last then PacketKind.lastPart else PacketKind.part).toByte id
    hseq payload
  rw [← hsplit] at hid hindex
  have hrest : sliceFrom (partDatagram last id seqIndex payload)
      (packetKindSize + packetIdSize + seqIndexSize) = some payload :=
    sliceFrom_append _ _ (length_partHeader last id seqIndex).symm
  simp only [handle_eq, handleFields, hhead, hid, hindex, hrest, PacketKind.tryFrom_toByte]
  cases last <;>
  · simp only [Bool.false_eq_true, if_true, if_false, Option.some.injEq, reduceCtorEq, decide_false,
      decide_true]
    cases b.receive _ id seqIndex payload addr env with
    | error abort => rfl
    | ok received =>
      obtain ⟨result, b', env'⟩ := received
      cases result <;> rfl

/-- Handling a `Done`. -/
theorem ReceivePacketBuffer.handle_done (b : ReceivePacketBuffer) (addr : SocketAddr) (env : Env) :
    b.handle (doneDatagram id) addr env =
      .ok (.ok (.done (b.packets.get? id).isSome), { b with packets := b.packets.erase id }, env) := by
  have hid := slice_id PacketKind.done.toByte id []
  rw [List.append_nil, ← doneDatagram_eq] at hid
  have hhead : (doneDatagram id).head? = some PacketKind.done.toByte := by
    rw [doneDatagram_eq]
    rfl
  simp only [handle_eq, handleFields, hhead, hid, PacketKind.tryFrom_toByte]
  rfl

/-- The receive buffer leaves acks alone. -/
theorem ReceivePacketBuffer.handle_ack (b : ReceivePacketBuffer) (seqIndex : ℕ) (addr : SocketAddr)
    (env : Env) : b.handle (ackDatagram id seqIndex) addr env = .ok (.ok .unhandled, b, env) := by
  have hhead : (ackDatagram id seqIndex).head? = some PacketKind.ack.toByte := by
    rw [ackDatagram_eq]
    rfl
  simp only [handle, hhead, PacketKind.tryFrom_toByte]

/-- Handling an ack. -/
theorem SendPacketBuffer.handle_ack (b : SendPacketBuffer) (hseq : seqIndex < seqIndexBound) :
    b.handle (ackDatagram id seqIndex) =
      .ok (((b.ack id seqIndex).1.mapError fun kind => .ack ⟨id, kind⟩).map .ack,
        (b.ack id seqIndex).2) := by
  have hid := slice_id PacketKind.ack.toByte id (SeqIndex.toLeBytes seqIndex)
  have hindex := slice_seqIndex PacketKind.ack.toByte id hseq []
  rw [List.append_nil, ← ackDatagram_eq] at hindex
  rw [← ackDatagram_eq] at hid
  have hhead : (ackDatagram id seqIndex).head? = some PacketKind.ack.toByte := by
    rw [ackDatagram_eq]
    rfl
  simp only [handle_eq, handleFields, hhead, hid, hindex, PacketKind.tryFrom_toByte]
  rcases b.ack id seqIndex with ⟨result, b'⟩
  cases result <;> rfl

end Datagrams

/-- Handling any datagram leaves the packets being sent alone, or acks a part of one of them. -/
theorem SendPacketBuffer.handle_cases (b : SendPacketBuffer) (buf : Bytes) :
    (b.handleFields buf).2 = b ∨ ∃ id seqIndex, (b.handleFields buf).2 = (b.ack id seqIndex).2 := by
  unfold handleFields
  split
  · exact Or.inl rfl
  · split
    · dsimp only
      split
      · rename_i id seqIndex _ _
        refine Or.inr ⟨id, seqIndex, ?_⟩
        rcases b.ack id seqIndex with ⟨result, b'⟩
        cases result <;> rfl
      · exact Or.inl rfl
    · exact Or.inl rfl

/-- What an ack does to one packet. -/
theorem SendPacketBuffer.get?_ack (b : SendPacketBuffer) (id : PacketId) (seqIndex : ℕ)
    (k : PacketId) :
    (b.ack id seqIndex).2.packets.get? k =
      if k = id then (b.packets.get? id).map fun p => (p.ack seqIndex).2 else b.packets.get? k := by
  unfold ack
  cases hget : b.packets.get? id with
  | none =>
    dsimp only [Option.map_none]
    split_ifs with hk
    · rw [hk, hget]
    · rfl
  | some p =>
    have hinsert : ((b.packets.insert id (p.ack seqIndex).2).get? k) =
        if k = id then some (p.ack seqIndex).2 else b.packets.get? k :=
      SortedMap.get?_insert _ _ _ _
    dsimp only [Option.map_some]
    split <;> exact hinsert

/-! ## Both directions -/

/-- What handling a datagram did. -/
inductive PacketHandling
  | received (received : ReceivedPacket)
  | done (knownPacket : Bool)
  | ack (duplicate : Bool)
  deriving DecidableEq

/-- The packets of a connection. -/
structure PacketBuffers where
  sendBuffer : SendPacketBuffer
  receiveBuffer : ReceivePacketBuffer

namespace PacketBuffers

/-- No packets. -/
def new (initialSendBatchSize : NonZeroBatchSize) : PacketBuffers where
  sendBuffer := .new initialSendBatchSize
  receiveBuffer := .new

/-- Send a new packet.  The result is its id. -/
def send (b : PacketBuffers) (packet : List Bytes) (backgroundSerializationThreshold : ℕ)
    (addr : SocketAddr) (env : Env) : Exec (IoResult PacketId × PacketBuffers × Env) := do
  let (result, sendBuffer, env) ←
    b.sendBuffer.send packet backgroundSerializationThreshold addr env
  return (result, { b with sendBuffer }, env)

/-- Forget the packets that timed out. -/
def timeoutPackets (b : PacketBuffers) (maxMissedAcks receiveTimeout : Option ℕ) (env : Env) :
    PacketBuffers where
  sendBuffer := match maxMissedAcks with
    | some maxMissedAcks => b.sendBuffer.timeoutPackets maxMissedAcks
    | none => b.sendBuffer
  receiveBuffer := match receiveTimeout with
    | some receiveTimeout => b.receiveBuffer.timeoutPackets receiveTimeout env
    | none => b.receiveBuffer

/-- Forget the packets that timed out, and send pending parts. -/
def update (b : PacketBuffers) (resendDelay : ℕ) (maxMissedAcks receiveTimeout : Option ℕ)
    (addr : SocketAddr) (env : Env) : IoResult Unit × PacketBuffers × Env :=
  let b := b.timeoutPackets maxMissedAcks receiveTimeout env
  let (result, sendBuffer, env) := b.sendBuffer.sendPending resendDelay addr env
  (result, { b with sendBuffer }, env)

/-- Handle a datagram. -/
def handle (b : PacketBuffers) (buf : Bytes) (addr : SocketAddr) (env : Env) :
    Exec (Except HandlePacketError PacketHandling × PacketBuffers × Env) :=
  match buf with
  | [] => .ok (.error .empty, b, env)
  | kind :: _ => do
      let (result, receiveBuffer, env) ← b.receiveBuffer.handle buf addr env
      let b := { b with receiveBuffer }
      match result with
      | .error error => return (.error error, b, env)
      | .ok (.ack received) => return (.ok (.received received), b, env)
      | .ok (.done knownPacket) => return (.ok (.done knownPacket), b, env)
      | .ok .unhandled =>
          let (result, sendBuffer) ← b.sendBuffer.handle buf
          let b := { b with sendBuffer }
          match result with
          | .error error => return (.error error, b, env)
          | .ok (.ack duplicate) => return (.ok (.ack duplicate), b, env)
          | .ok .unhandled => return (.error (.unexpectedKind kind), b, env)

/-! ## What is being sent stays -/

/-- Everything sending a packet can do. -/
theorem send_cases {b b' : PacketBuffers} {packet : List Bytes} {threshold : ℕ}
    {addr : SocketAddr} {env env' : Env} {result : IoResult PacketId}
    (h : b.send packet threshold addr env = .ok (result, b', env')) :
    ∃ serialized, serializePacket env.newUuid.1 threshold packet = .ok serialized ∧
      ((∃ error, PacketOut.send serialized addr b.sendBuffer.batchSize env.newUuid.2 =
          (.error error, env') ∧ result = .error error ∧ b' = b) ∨
        ∃ packetOut, PacketOut.send serialized addr b.sendBuffer.batchSize env.newUuid.2 =
            (.ok packetOut, env') ∧ result = .ok env.newUuid.1 ∧
          b' = { b with sendBuffer := { b.sendBuffer with
            packets := b.sendBuffer.packets.insert env.newUuid.1 packetOut } }) := by
  unfold send SendPacketBuffer.send at h
  cases hserialize : serializePacket env.newUuid.1 threshold packet with
  | error abort => simp [hserialize, bind, Except.bind] at h
  | ok serialized =>
    refine ⟨serialized, rfl, ?_⟩
    rcases hout : PacketOut.send serialized addr b.sendBuffer.batchSize env.newUuid.2 with
      ⟨sent, env''⟩
    simp only [hserialize, bind, Except.bind, hout] at h
    cases sent with
    | error error =>
      cases h
      exact Or.inl ⟨error, rfl, rfl, rfl⟩
    | ok packetOut =>
      cases h
      exact Or.inr ⟨packetOut, rfl, rfl, rfl⟩

/-- Sending a packet uses the socket only to send to the address. -/
theorem send_env {b b' : PacketBuffers} {packet : List Bytes} {threshold : ℕ} {addr : SocketAddr}
    {env env' : Env} {result : IoResult PacketId}
    (h : b.send packet threshold addr env = .ok (result, b', env')) :
    ∃ tried bufs : List Bytes,
      env' = env.newUuid.2.record (tried.map (Prod.mk addr)) (bufs.map (Prod.mk addr)) := by
  obtain ⟨serialized, -, hcases⟩ := send_cases h
  have hsend : ∃ tried bufs : List Bytes,
      (PacketOut.send serialized addr b.sendBuffer.batchSize env.newUuid.2).2 =
        env.newUuid.2.record (tried.map (Prod.mk addr)) (bufs.map (Prod.mk addr)) := by
    unfold PacketOut.send PacketQueue.sendUnacked
    dsimp only
    obtain ⟨k, -, tried, henv, -⟩ := PacketQueue.sendBuffers_spec addr 0
      ((PacketQueue.new serialized).unacked b.sendBuffer.batchSize.val).1 env.newUuid.2
    refine ⟨tried, _, Eq.trans ?_ henv⟩
    split <;> rename_i heq <;> rw [Prod.ext_iff, Prod.ext_iff] at heq <;> exact heq.2.2.symm
  rcases hcases with ⟨error, hout, -, -⟩ | ⟨packetOut, hout, -, -⟩ <;> rw [hout] at hsend <;>
    exact hsend

/-- Sending a packet panics only where serializing it does. -/
theorem send_eq_error {b : PacketBuffers} {packet : List Bytes} {threshold : ℕ} {addr : SocketAddr}
    {env : Env} {abort : Abort} (h : b.send packet threshold addr env = .error abort) :
    serializePacket env.newUuid.1 threshold packet = .error abort := by
  unfold send SendPacketBuffer.send at h
  cases hserialize : serializePacket env.newUuid.1 threshold packet with
  | error abort' =>
    simp only [hserialize, bind, Except.bind] at h
    cases h
    rfl
  | ok serialized =>
    rcases hout : PacketOut.send serialized addr b.sendBuffer.batchSize env.newUuid.2 with
      ⟨sent, env''⟩
    simp only [hserialize, bind, Except.bind, hout] at h
    cases sent <;> cases h

/-- Sending a packet loses none, and keeps the new one if it has no error. -/
theorem send_outstanding {b b' : PacketBuffers} {packet : List Bytes}
    {threshold : ℕ} {addr : SocketAddr} {env env' : Env} {result : IoResult PacketId}
    (h : b.send packet threshold addr env = .ok (result, b', env')) :
    (∀ id, (b.sendBuffer.packets.get? id).isSome = true →
        (b'.sendBuffer.packets.get? id).isSome = true) ∧
      ∀ id, result = .ok id → (b'.sendBuffer.packets.get? id).isSome = true := by
  obtain ⟨serialized, -, ⟨error, -, rfl, rfl⟩ | ⟨packetOut, -, rfl, rfl⟩⟩ := send_cases h
  · exact ⟨fun _ hid => hid, fun id hid => by cases hid⟩
  · refine ⟨fun id hid => ?_, fun id hid => ?_⟩
    · simp only [SortedMap.get?_insert]
      split_ifs with heq
      · rfl
      · exact hid
    · cases hid
      simp

/-- Handling a datagram loses none of the packets that are being sent. -/
theorem handle_outstanding {b b' : PacketBuffers} {buf : Bytes} {addr : SocketAddr}
    {env env' : Env} {result : Except HandlePacketError PacketHandling}
    (h : b.handle buf addr env = .ok (result, b', env')) (id : PacketId)
    (hid : (b.sendBuffer.packets.get? id).isSome = true) :
    (b'.sendBuffer.packets.get? id).isSome = true := by
  have hack : ((b.sendBuffer.handleFields buf).2.packets.get? id).isSome = true := by
    rcases b.sendBuffer.handle_cases buf with hsame | ⟨id', seqIndex, hack⟩
    · rw [hsame]
      exact hid
    · rw [hack, SendPacketBuffer.ack]
      split
      · exact hid
      · dsimp only
        split <;>
        · simp only [SortedMap.get?_insert]
          split_ifs
          · rfl
          · exact hid
  unfold handle at h
  split at h
  · cases h
    exact hid
  · rename_i kind rest
    cases hreceive : b.receiveBuffer.handle (kind :: rest) addr env with
    | error abort => simp [hreceive, bind, Except.bind] at h
    | ok received =>
      obtain ⟨result', receiveBuffer, env''⟩ := received
      simp only [hreceive, SendPacketBuffer.handle_eq, bind, Except.bind, pure, Except.pure] at h
      split at h
      · cases h
        exact hid
      · cases h
        exact hid
      · cases h
        exact hid
      · split at h
        · cases h
          exact hack
        · cases h
          exact hack
        · cases h
          exact hack

end PacketBuffers

/-! ## When a packet leaves -/

namespace PacketOut

/-- The packet still has something to send: it was not canceled, and either it is not due yet or some
of its parts are not acked. -/
def Unfinished (p : PacketOut) (resendDelay now : ℕ) : Prop :=
  ∃ lastSend, p.lastSend = some lastSend ∧
    (elapsed now lastSend < resendDelay ∨
      (p.packetQueue.unacked
        (balanceBatchSize p.batchSize p.lastBatchAcks p.lastBatchSize).val).1 ≠ [])

/-- The packet outlasts an update: it is not given up after missed acks, and it still has something to
send or its `Done` cannot be sent. -/
def Outlasts (p : PacketOut) (id : PacketId) (resendDelay : ℕ) (maxMissedAcks : Option ℕ)
    (addr : SocketAddr) (env : Env) : Prop :=
  (∀ m, maxMissedAcks = some m → p.missedAcks ≤ m) ∧
    (p.Unfinished resendDelay env.now ∨
      ∀ attempts, env.answer attempts (addr, doneDatagram id) ≠ .sent)

/-- Sending pending parts uses the socket only to send to the address. -/
theorem sendPending_env (p : PacketOut) (id : PacketId) (resendDelay : ℕ) (addr : SocketAddr)
    (env : Env) : ∃ tried bufs : List Bytes,
      (p.sendPending id resendDelay addr env).2.2 =
        env.record (tried.map (Prod.mk addr)) (bufs.map (Prod.mk addr)) := by
  have hdone : ∀ env : Env, ∃ tried bufs : List Bytes,
      (done id addr env).2 =
        env.record (tried.map (Prod.mk addr)) (bufs.map (Prod.mk addr)) := by
    intro env
    unfold done
    rcases env.send_cases addr (doneDatagram id) with
      ⟨hsend, -⟩ | ⟨hsend, -⟩ | ⟨error, hsend, -⟩
    · rw [hsend]
      exact ⟨[doneDatagram id], [doneDatagram id], rfl⟩
    · rw [hsend]
      exact ⟨[doneDatagram id], [], rfl⟩
    · rw [hsend]
      exact ⟨[doneDatagram id], [], rfl⟩
  unfold sendPending
  split
  · exact hdone env
  · split_ifs
    · exact ⟨[], [], by simp⟩
    · dsimp only [PacketQueue.sendUnacked]
      obtain ⟨k, -, tried, henv, -⟩ := PacketQueue.sendBuffers_spec addr 0
        (p.packetQueue.unacked
          (balanceBatchSize p.batchSize p.lastBatchAcks p.lastBatchSize).val).1 env
      rcases hsend : PacketQueue.sendBuffers addr 0 (p.packetQueue.unacked
          (balanceBatchSize p.batchSize p.lastBatchAcks p.lastBatchSize).val).1 env with
        ⟨result, env'⟩
      rw [hsend] at henv
      subst henv
      split
      · rename_i heq
        cases heq
        exact ⟨_, _, rfl⟩
      · rename_i heq
        cases heq
        obtain ⟨tried', bufs', henv'⟩ := hdone (env.record (tried.map (Prod.mk addr)) _)
        rw [Env.record_record, ← List.map_append, ← List.map_append] at henv'
        exact ⟨_, _, henv'⟩
      · rename_i heq
        cases heq
        exact ⟨_, _, rfl⟩

/-- A packet that has something to send, or whose `Done` cannot be sent, does not leave. -/
theorem sendPending_ne_true {p : PacketOut} {id : PacketId} {resendDelay : ℕ} {addr : SocketAddr}
    {env : Env} (h : p.Unfinished resendDelay env.now ∨
      ∀ attempts, env.answer attempts (addr, doneDatagram id) ≠ .sent) :
    (p.sendPending id resendDelay addr env).1 ≠ .ok true := by
  have hdone : ∀ env : Env, (∀ attempts, env.answer attempts (addr, doneDatagram id) ≠ .sent) →
      (done id addr env).1 ≠ .ok true := by
    intro env hno
    unfold done
    rcases env.send_cases addr (doneDatagram id) with
      ⟨-, hanswer⟩ | ⟨hsend, -⟩ | ⟨error, hsend, -⟩
    · exact absurd hanswer (hno _)
    · rw [hsend]
      simp
    · rw [hsend]
      simp
  unfold sendPending
  split
  · rename_i hnone
    rcases h with ⟨lastSend, hsome, -⟩ | hno
    · rw [hnone] at hsome
      cases hsome
    · exact hdone env hno
  · rename_i lastSend hlast
    split_ifs with hdue
    · simp
    · dsimp only [PacketQueue.sendUnacked]
      obtain ⟨k, hk, attempts, henv, hres⟩ := PacketQueue.sendBuffers_spec addr 0
        (p.packetQueue.unacked
          (balanceBatchSize p.batchSize p.lastBatchAcks p.lastBatchSize).val).1 env
      rcases hsend : PacketQueue.sendBuffers addr 0 (p.packetQueue.unacked
          (balanceBatchSize p.batchSize p.lastBatchAcks p.lastBatchSize).val).1 env with
        ⟨result, env'⟩
      rw [hsend] at henv hres
      subst henv
      split
      · simp
      · rename_i heq
        cases heq
        rcases h with ⟨lastSend', hsome, hleft⟩ | hno
        · -- nothing was sent although the socket never blocked, so nothing was left
          rw [hlast] at hsome
          cases hsome
          rcases hleft with hearly | hne
          · exact absurd hearly hdue
          · rcases hres with ⟨error, herror, -⟩ | hok
            · cases herror
            · simp only [Except.ok.injEq, Prod.mk.injEq] at hok
              obtain ⟨hzero, hall⟩ := hok
              have hlength := of_decide_eq_true hall.symm
              exact absurd (List.eq_nil_of_length_eq_zero (by omega)) hne
        · exact hdone _ hno
      · simp

end PacketOut

/-- The visit of a packet uses the socket only to send to the address. -/
theorem SendPacketBuffer.visit_env (resendDelay : ℕ) (addr : SocketAddr) (pass : Pass)
    (id : PacketId) (packet : PacketOut) : ∃ tried bufs : List Bytes,
      (visit resendDelay addr pass id packet).1.env =
        pass.env.record (tried.map (Prod.mk addr)) (bufs.map (Prod.mk addr)) := by
  obtain ⟨tried, bufs, henv⟩ := packet.sendPending_env id resendDelay addr pass.env
  unfold visit
  dsimp only
  split
  · exact ⟨[], [], by simp⟩
  · split <;> rename_i heq <;> rw [heq] at henv <;> exact ⟨tried, bufs, henv⟩

namespace PacketBuffers

/-- A packet that outlasts an update is still being sent after it, unless the update fails. -/
theorem update_outstanding {b b' : PacketBuffers} {resendDelay : ℕ}
    {maxMissedAcks receiveTimeout : Option ℕ} {addr : SocketAddr} {env env' : Env}
    {id : PacketId} {packet : PacketOut} (hget : b.sendBuffer.packets.get? id = some packet)
    (hlasts : packet.Outlasts id resendDelay maxMissedAcks addr env)
    {result : IoResult Unit}
    (h : b.update resendDelay maxMissedAcks receiveTimeout addr env = (result, b', env')) :
    (b'.sendBuffer.packets.get? id).isSome = true := by
  obtain ⟨hmissed, hunfinished⟩ := hlasts
  have hkept : (b.timeoutPackets maxMissedAcks receiveTimeout env).sendBuffer.packets.get? id =
      some packet := by
    unfold timeoutPackets
    cases hmax : maxMissedAcks with
    | none => exact hget
    | some m =>
      simp only [SendPacketBuffer.timeoutPackets, SortedMap.get?_retain, hget, Option.filter_some]
      rw [if_pos (by simpa using hmissed m hmax)]
  have hb' : b'.sendBuffer.packets = ((b.timeoutPackets maxMissedAcks receiveTimeout
      env).sendBuffer.packets.retainState (SendPacketBuffer.visit resendDelay addr)
        { batchSize := 0, count := 0, result := .ok (), env }).2 := by
    unfold update SendPacketBuffer.sendPending at h
    cases h
    rfl
  -- the environment of a visit differs from the one at the beginning in what was sent only
  obtain ⟨pass, ⟨hnow, hanswer⟩, hvisit, -⟩ := SortedMap.get?_retainState
    (f := SendPacketBuffer.visit resendDelay addr)
    (R := fun pass pass' => pass'.env.now = pass.env.now ∧ pass'.env.answer = pass.env.answer)
    (fun _ => ⟨rfl, rfl⟩)
    (fun _ _ _ h h' => ⟨h'.1.trans h.1, h'.2.trans h.2⟩)
    (fun pass id packet => by
      obtain ⟨tried, bufs, henv⟩ := SendPacketBuffer.visit_env resendDelay addr pass id packet
      rw [henv]
      exact ⟨rfl, rfl⟩)
    { batchSize := 0, count := 0, result := .ok (), env } hkept
  rw [hb', hvisit]
  have hstays : packet.Unfinished resendDelay pass.env.now ∨
      ∀ attempts, pass.env.answer attempts (addr, doneDatagram id) ≠ .sent := by
    rwa [hnow, hanswer]
  have hne := PacketOut.sendPending_ne_true hstays
  unfold SendPacketBuffer.visit
  dsimp only
  split
  · rfl
  · split <;> rename_i heq <;> rw [heq] at hne
    · rename_i finished _ _
      cases finished with
      | true => exact absurd rfl hne
      | false => rfl
    · rfl

end PacketBuffers

end Ultinet
