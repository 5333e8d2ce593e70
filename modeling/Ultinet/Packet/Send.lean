import Ultinet.Lib.BitWindow
import Ultinet.Packet.Chunks

/-!
# Sending the parts of one packet

`send.rs`: a `PacketOut` keeps the parts of a packet until they are acked.  Its `PacketQueue` drops
parts from the front as they are acked and pulls further ones from the background thread as they
are needed.

Counters of type `usize` are natural numbers.  Batch sizes are 16-bit numbers; `NonZeroBatchSize`
carries its bounds.
-/

namespace Ultinet

/-! ## Batch sizes -/

/-- The largest batch size. -/
def batchSizeMax : ℕ := 2 ^ 16 - 1

/-- A batch size other than zero. -/
abbrev NonZeroBatchSize := { n : ℕ // 0 < n ∧ n ≤ batchSizeMax }

namespace NonZeroBatchSize

/-- The smallest batch size. -/
def min : NonZeroBatchSize := ⟨1, by decide⟩

/-- A 16-bit number as a batch size, unless it is zero. -/
def new (n : ℕ) : Option NonZeroBatchSize :=
  if h : 0 < n ∧ n ≤ batchSizeMax then some ⟨n, h⟩ else none

end NonZeroBatchSize

/-! ## The queue of parts -/

/-- The parts of a packet that are not acked yet. -/
structure PacketQueue where
  /-- The buffers from `firstUnacked` on that were pulled so far. -/
  packets : List PacketBuffer
  /-- How many buffers were dropped from the front. -/
  firstUnacked : ℕ
  /-- The channel that provides further buffers. -/
  rx : Option (List PacketBuffer)

namespace PacketQueue

/-- A queue with all parts of a packet. -/
def new : SerializedPacket → PacketQueue
  | .vec packets => { packets, firstUnacked := 0, rx := none }
  | .channel rx => { packets := [], firstUnacked := 0, rx := some rx }

/-- The parts of a queue that are not acked, in order. -/
def pending (packets : List PacketBuffer) : List PacketBuffer :=
  packets.filter fun packet => !packet.acked

/-- Pull as many buffers from the channel as are missing to have `count` unacked ones. -/
def pull (q : PacketQueue) (count : ℕ) : PacketQueue :=
  match q.rx with
  | none => q
  | some rx =>
      let existing := ((pending q.packets).take count).length
      { q with
        packets := q.packets ++ rx.take (count - existing)
        rx := some (rx.drop (count - existing)) }

/-- Up to `count` unacked parts, pulled from the channel as far as they are missing. -/
def unacked (q : PacketQueue) (count : ℕ) : List Bytes × PacketQueue :=
  let q := q.pull count
  (((pending q.packets).map PacketBuffer.deref).take count, q)

/-- Send some buffers until the socket would block.  The result is `count` increased by the number
of buffers sent, and whether none of the sends would have blocked. -/
def sendBuffers (addr : SocketAddr) : ℕ → List Bytes → Env → IoResult (ℕ × Bool) × Env
  | count, [], env => (.ok (count, true), env)
  | count, buf :: bufs, env =>
      match env.send addr buf with
      | (.error error, env) => (.error error, env)
      | (.ok false, env) => (.ok (count, false), env)
      | (.ok true, env) => sendBuffers addr (count + 1) bufs env

/-- Send up to `batchSize` unacked parts. -/
def sendUnacked (q : PacketQueue) (batchSize : NonZeroBatchSize) (addr : SocketAddr) (env : Env) :
    IoResult (ℕ × Bool) × PacketQueue × Env :=
  let (bufs, q) := q.unacked batchSize.val
  let (result, env) := sendBuffers addr 0 bufs env
  (result, q, env)

/-- Mark a part as acked and drop the acked parts at the front.  The result tells whether the part
was acked before. -/
def ack (q : PacketQueue) (seqIndex : ℕ) :
    Except SeqIndexAckedBeforeSent Bool × PacketQueue :=
  match q.packets[seqIndex]? with
  | none => (.error ⟨seqIndex⟩, q)
  | some packet =>
      if packet.acked then (.ok true, q)
      else
        let packets := q.packets.set seqIndex { packet with acked := true }
        let firstUnacked := packets.findIdx fun packet => !packet.acked
        (.ok false,
          { q with
            packets := packets.drop firstUnacked
            firstUnacked := q.firstUnacked + firstUnacked })

end PacketQueue

/-! ## A packet being sent -/

/-- A packet that is being sent. -/
structure PacketOut where
  packetQueue : PacketQueue
  /-- When a batch was last sent; `none` if the packet was canceled. -/
  lastSend : Option ℕ
  missedAcks : ℕ
  batchSize : NonZeroBatchSize
  lastBatchSize : ℕ
  lastBatchAcks : ℕ

namespace PacketOut

/-- Start to send a packet. -/
def send (packet : SerializedPacket) (addr : SocketAddr) (initialBatchSize : NonZeroBatchSize)
    (env : Env) : IoResult PacketOut × Env :=
  let packetQueue := PacketQueue.new packet
  match packetQueue.sendUnacked initialBatchSize addr env with
  | (.error error, _, env) => (.error error, env)
  | (.ok (lastBatchSize, sent), packetQueue, env) =>
      (.ok { packetQueue
             lastSend := if sent then some env.now else none
             missedAcks := 0
             batchSize := initialBatchSize
             lastBatchSize
             lastBatchAcks := 0 }, env)

/-- Mark a part as acked.  The result tells whether it was acked before. -/
def ack (p : PacketOut) (seqIndex : ℕ) : Except SeqIndexAckedBeforeSent Bool × PacketOut :=
  let p := { p with missedAcks := 0 }
  match p.packetQueue.ack seqIndex with
  | (.error error, packetQueue) => (.error error, { p with packetQueue })
  | (.ok true, packetQueue) => (.ok true, { p with packetQueue })
  | (.ok false, packetQueue) =>
      (.ok false,
        { p with packetQueue, lastBatchAcks := min (p.lastBatchAcks + 1) batchSizeMax })

/-- Adjust the batch size: up to twice as much if everything was acked, otherwise half of it. -/
def balanceBatchSize (oldBatchSize : NonZeroBatchSize) (lastBatchAcks lastBatchSize : ℕ) :
    NonZeroBatchSize :=
  if lastBatchAcks ≥ lastBatchSize then
    let doubledLastBatchSize := min (lastBatchSize * 2) batchSizeMax
    max oldBatchSize ((NonZeroBatchSize.new doubledLastBatchSize).getD .min)
  else
    let halfed := oldBatchSize.val / 2
    (NonZeroBatchSize.new halfed).getD .min

/-- Send the parts that were not acked again.  The result is `true` if all of them were acked, or
the packet was canceled, and a `Done` was sent. -/
def sendPending (p : PacketOut) (id : PacketId) (resendDelay : ℕ) (addr : SocketAddr)
    (env : Env) : IoResult Bool × PacketOut × Env :=
  match p.lastSend with
  | none =>
      let (result, env) := done id addr env
      (result, p, env)
  | some lastSend =>
      if elapsed env.now lastSend < resendDelay then (.ok false, p, env)
      else
        let p := { p with
          batchSize := balanceBatchSize p.batchSize p.lastBatchAcks p.lastBatchSize }
        match p.packetQueue.sendUnacked p.batchSize addr env with
        | (.error error, packetQueue, env) => (.error error, { p with packetQueue }, env)
        | (.ok (0, true), packetQueue, env) =>
            let (result, env) := done id addr env
            (result, { p with packetQueue }, env)
        | (.ok (count, _), packetQueue, env) =>
            (.ok false,
              { p with
                packetQueue
                missedAcks := p.missedAcks + (p.lastBatchSize - p.lastBatchAcks)
                lastBatchSize := count
                lastBatchAcks := 0
                lastSend := some env.now }, env)

end PacketOut

end Ultinet
