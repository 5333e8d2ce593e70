import Ultinet.Packet.PacketBuffer

/-!
# Serializing a packet into parts

`serialize.rs`: a packet is serialized into a vector of buffers; if that takes more buffers than the
threshold, the buffers go into a channel and a background thread serializes the packet once more,
skipping what is already there and sending the rest.

A value to serialize is the sequence of its `write` calls.  A channel is the list of the buffers its
receiver will get before it is closed.  The `while` loops of the two `write` functions get a number
of passes; `serializePacket` never uses it up, which is part of what is proved in `Chunks.lean`.
-/

namespace Ultinet

/-! ## Serializing into a vector -/

/-- The serializer that collects the buffers in a vector. -/
structure VecPacketSerializer where
  backgroundSerializationThreshold : ℕ
  buf : List PacketBuffer

namespace VecPacketSerializer

/-- The position in the output, which rkyv asks for before it writes an object. -/
def pos (_ : VecPacketSerializer) : ℕ := 0

/-- The passes of the `while` loop of `write`.  The error is the vector of all buffers. -/
def writeLoop : ℕ → VecPacketSerializer → Bytes →
    Exec (Except (List PacketBuffer) VecPacketSerializer)
  | 0, _, _ => .error .outOfFuel
  | fuel + 1, s, bytes =>
      if bytes.isEmpty then .ok (.ok s)
      else
        let atLimit := s.buf.length == s.backgroundSerializationThreshold
        match s.buf.getLast? with
        | none => .error (.panic "should not be empty")
        | some last =>
            let before := bytes.length
            let (bytes, last) := last.append bytes
            let s := { s with buf := s.buf.dropLast ++ [last] }
            let after := bytes.length
            if after = before then
              if atLimit then .ok (.error s.buf)
              else do
                let packet ← last.newNext
                writeLoop fuel { s with buf := s.buf ++ [packet] } bytes
            else writeLoop fuel s bytes

/-- Write some bytes. -/
def write (s : VecPacketSerializer) (bytes : Bytes) :
    Exec (Except (List PacketBuffer) VecPacketSerializer) :=
  writeLoop (2 * bytes.length + 1) s bytes

/-- Serialize a value: its writes, up to the first one that fails. -/
def serializeValue : VecPacketSerializer → List Bytes →
    Exec (Except (List PacketBuffer) VecPacketSerializer)
  | s, [] => .ok (.ok s)
  | s, bytes :: value => do
      match ← s.write bytes with
      | .error buf => return .error buf
      | .ok s => serializeValue s value

end VecPacketSerializer

/-! ## Serializing into a channel -/

/-- The serializer that sends the buffers into a channel.  `tx` collects what was sent.

The receiver is kept: that it is dropped would only make the serializer stop, which nobody sees. -/
structure ChannelPacketSerializer where
  skip : ℕ
  buf : PacketBuffer
  tx : List PacketBuffer

namespace ChannelPacketSerializer

/-- The position in the output, which rkyv asks for before it writes an object. -/
def pos (_ : ChannelPacketSerializer) : ℕ := 0

/-- The passes of the `while` loop of `write`. -/
def writeLoop : ℕ → ChannelPacketSerializer → Bytes → Exec Unit × ChannelPacketSerializer
  | 0, s, _ => (.error .outOfFuel, s)
  | fuel + 1, s, bytes =>
      if bytes.isEmpty then (.ok (), s)
      else
        let before := bytes.length
        let (bytes, buf) := if s.skip > 0 then s.buf.skip bytes else s.buf.append bytes
        let s := { s with buf }
        let after := bytes.length
        if after = before then
          let s := if s.skip > 0 then { s with skip := s.skip - 1 }
            else { s with tx := s.tx ++ [s.buf.copy] }
          match s.buf.next with
          | .error abort => (.error abort, s)
          | .ok buf => writeLoop fuel { s with buf } bytes
        else writeLoop fuel s bytes

/-- Write some bytes. -/
def write (s : ChannelPacketSerializer) (bytes : Bytes) : Exec Unit × ChannelPacketSerializer :=
  writeLoop (2 * bytes.length + 1) s bytes

/-- Serialize a value: its writes, one after the other. -/
def serializeValue : ChannelPacketSerializer → List Bytes → Exec Unit × ChannelPacketSerializer
  | s, [] => (.ok (), s)
  | s, bytes :: value =>
      match s.write bytes with
      | (.error abort, s) => (.error abort, s)
      | (.ok (), s) => serializeValue s value

end ChannelPacketSerializer

/-! ## Serializing a packet -/

/-- The parts of a packet: all of them, or the channel they come from. -/
inductive SerializedPacket
  | vec (packets : List PacketBuffer)
  | channel (rx : List PacketBuffer)

/-- The buffers of a serialized packet, wherever they come from. -/
def SerializedPacket.buffers : SerializedPacket → List PacketBuffer
  | .vec packets => packets
  | .channel rx => rx

/-- The background thread: how it ends, and what it sends. -/
def serializeThread (id : PacketId) (alreadySerialized : List PacketBuffer) (value : List Bytes) :
    Exec Unit × List PacketBuffer :=
  let serializer : ChannelPacketSerializer :=
    { skip := alreadySerialized.length
      buf := PacketBuffer.new id
      tx := alreadySerialized }
  match serializer.serializeValue value with
  | (.error abort, serializer) => (.error abort, serializer.tx)
  | (.ok (), serializer) =>
      if serializer.skip = 0 then (.ok (), serializer.tx ++ [serializer.buf.markLast.copy])
      else (.error (.panic "assertion failed: serializer.skip == 0"), serializer.tx)

/-- The first attempt, into a vector: the finished parts, or the buffers at the threshold. -/
def serializeInMemory (id : PacketId) (backgroundSerializationThreshold : ℕ)
    (value : List Bytes) : Exec (Except (List PacketBuffer) (List PacketBuffer)) := do
  if backgroundSerializationThreshold = 0 then
    return .error []
  let serializer : VecPacketSerializer := { backgroundSerializationThreshold
                                            buf := [PacketBuffer.new id] }
  match ← serializer.serializeValue value with
  | .error alreadySerialized => return .error alreadySerialized
  | .ok serializer =>
      match serializer.buf.getLast? with
      | none => .error (.panic "called `Option::unwrap()` on a `None` value")
      | some last => return .ok (serializer.buf.dropLast ++ [last.markLast])

/-- Serialize a packet, automatically switching to a thread if necessary. -/
def serializePacket (id : PacketId) (backgroundSerializationThreshold : ℕ) (value : List Bytes) :
    Exec SerializedPacket := do
  match ← serializeInMemory id backgroundSerializationThreshold value with
  | .ok packets => return .vec packets
  | .error alreadySerialized =>
      return .channel (serializeThread id alreadySerialized value).2

end Ultinet
