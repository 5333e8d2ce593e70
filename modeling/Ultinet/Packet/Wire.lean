import Ultinet.Lib.Chunking
import Ultinet.Net.Socket

/-!
# The wire format

The constants, the kinds of datagrams and the encoders and decoders of `packet.rs`.  A datagram
starts with its kind.  Parts, acks and `Done` go on with the id of a packet; parts and acks with a
sequence index in little-endian order; the rest of a part is its payload.
-/

namespace Ultinet

/-! ## How a computation can stop -/

/-- Why a computation stops without a result. -/
inductive Abort
  /-- The program panics. -/
  | panic (message : String)
  /-- Code is reached of which it is said that it cannot be.  A debug build is killed there. -/
  | unreachable
  /-- A loop used up the number of passes it was given. -/
  | outOfFuel
  deriving DecidableEq

/-- The outcome of a computation that may panic. -/
abbrev Exec (α : Type) := Except Abort α

/-- A computation that may panic has a result if it does not. -/
theorem toOption_eq_some {α : Type} {x : Exec α} {a : α} : x.toOption = some a ↔ x = .ok a := by
  cases x with
  | error abort => simp [Except.toOption]
  | ok b => simp [Except.toOption]

/-- What is made of the result of a computation that may panic. -/
theorem exists_of_bind_toOption {α β : Type} {x : Exec α} {f : α → Option β} {b : β}
    (h : x.toOption.bind f = some b) : ∃ a, x = .ok a ∧ f a = some b := by
  cases x with
  | error abort => cases h
  | ok a => exact ⟨a, rfl, h⟩

/-- Two computations in a row that do not panic. -/
theorem exists_of_bind_ok {α β : Type} {x : Exec α} {f : α → Exec β} {b : β}
    (h : x >>= f = .ok b) : ∃ a, x = .ok a ∧ f a = .ok b := by
  cases x with
  | error abort => cases h
  | ok a => exact ⟨a, rfl, h⟩

/-- Two computations in a row of which the second one does not panic. -/
theorem bind_eq_error_iff {α β : Type} {x : Exec α} {f : α → Exec β} {abort : Abort}
    (hf : ∀ a, f a ≠ .error abort) : x >>= f = .error abort ↔ x = .error abort := by
  cases x with
  | error abort' =>
    constructor <;>
    · intro h
      cases h
      rfl
  | ok a => exact iff_of_false (hf a) fun h => by cases h

/-- What is read off a call that does not panic. -/
theorem map_toOption_of_eq_ok {α β : Type} {result : Exec α} {a : α} {f : α → β}
    (h : result = .ok a) : result.toOption.map f = some (f a) := by
  rw [h]
  rfl

/-! ## Constants -/

/-- The maximum size of a packet. -/
def packetBufferSize : ℕ := 512

/-- The size of a `PacketKind`, a `PacketId` and a `SeqIndex`. -/
def packetKindSize : ℕ := 1

@[inherit_doc packetKindSize] def packetIdSize : ℕ := 16

@[inherit_doc packetKindSize] def seqIndexSize : ℕ := 4

/-- The max size for the data section of a packet, i.e. without the single kind byte. -/
def packetDataSize : ℕ := packetBufferSize - packetKindSize

/-- How much payload a part packet can hold at most. -/
def partPacketPayloadSize : ℕ := packetDataSize - packetIdSize - seqIndexSize

/-- Everything in front of the payload of a part. -/
def headerLen : ℕ := packetKindSize + packetIdSize + seqIndexSize

theorem partPacketPayloadSize_pos : 0 < partPacketPayloadSize := by decide

/-! ## Kinds, identifiers and sequence indices -/

/-- The kinds of datagrams, in the order of their numbers. -/
inductive PacketKind
  | version
  | ping
  | part
  | lastPart
  | ack
  | done
  | firstUpdate
  deriving DecidableEq

namespace PacketKind

/-- The byte of a kind. -/
def toByte : PacketKind → UInt8
  | version => 0
  | ping => 1
  | part => 2
  | lastPart => 3
  | ack => 4
  | done => 5
  | firstUpdate => 6

/-- The kind of a byte, if it is one. -/
def tryFrom (b : UInt8) : Option PacketKind :=
  [version, ping, part, lastPart, ack, done, firstUpdate].find? fun kind => kind.toByte = b

@[simp] theorem tryFrom_toByte (kind : PacketKind) : tryFrom kind.toByte = some kind := by
  cases kind <;> decide

/-- The byte of a kind. -/
theorem toByte_of_tryFrom {byte : UInt8} {kind : PacketKind} (h : tryFrom byte = some kind) :
    kind.toByte = byte := by
  unfold tryFrom at h
  simpa using List.find?_some h

end PacketKind

/-- The identifier of a reliable packet. -/
abbrev PacketId := Uuid

/-! Sequence indices (`SeqIndex`) are natural numbers below `seqIndexBound`. -/

/-- One more than the largest sequence index. -/
def seqIndexBound : ℕ := 2 ^ 32

namespace SeqIndex

/-- Add two sequence indices, with overflow checks. -/
def add (a b : ℕ) : Exec ℕ :=
  if a + b < seqIndexBound then .ok (a + b) else .error (.panic "attempt to add with overflow")

theorem add_eq {a b : ℕ} (h : a + b < seqIndexBound) : add a b = .ok (a + b) :=
  if_pos h

/-- The little-endian bytes of a sequence index. -/
def toLeBytes (s : ℕ) : Bytes :=
  [UInt8.ofNat s, UInt8.ofNat (s / 2 ^ 8), UInt8.ofNat (s / 2 ^ 16), UInt8.ofNat (s / 2 ^ 24)]

/-- The sequence index of its four little-endian bytes. -/
def fromLeBytes : Bytes → Option ℕ
  | [b0, b1, b2, b3] =>
      some (b0.toNat + 2 ^ 8 * b1.toNat + 2 ^ 16 * b2.toNat + 2 ^ 24 * b3.toNat)
  | _ => none

@[simp] theorem length_toLeBytes (s : ℕ) : (toLeBytes s).length = 4 := rfl

@[simp] theorem fromLeBytes_toLeBytes {s : ℕ} (h : s < seqIndexBound) :
    fromLeBytes (toLeBytes s) = some s := by
  simp only [fromLeBytes, toLeBytes, UInt8.toNat_ofNat', Option.some.injEq]
  unfold seqIndexBound at h
  omega

theorem fromLeBytes_lt {bytes : Bytes} {s : ℕ} (h : fromLeBytes bytes = some s) :
    s < seqIndexBound := by
  unfold fromLeBytes at h
  split at h
  · rename_i b0 b1 b2 b3
    have h0 := b0.toNat_lt
    have h1 := b1.toNat_lt
    have h2 := b2.toNat_lt
    have h3 := b3.toNat_lt
    simp only [Option.some.injEq] at h
    unfold seqIndexBound
    omega
  · cases h

end SeqIndex

/-! ## Slices -/

/-- The slice of a buffer from one position up to another, if both are inside the buffer. -/
def slice (buf : Bytes) (start stop : ℕ) : Option Bytes :=
  if start ≤ stop ∧ stop ≤ buf.length then some ((buf.drop start).take (stop - start)) else none

/-- The slice of a buffer from a position on, if it is inside the buffer. -/
def sliceFrom (buf : Bytes) (start : ℕ) : Option Bytes :=
  if start ≤ buf.length then some (buf.drop start) else none

/-- The slice that lies behind a prefix. -/
theorem slice_append (a b c : Bytes) {start stop : ℕ} (hstart : start = a.length)
    (hstop : stop = a.length + b.length) : slice (a ++ b ++ c) start stop = some b := by
  subst hstart hstop
  unfold slice
  rw [if_pos ⟨by omega, by simp⟩, List.append_assoc, List.drop_left,
    Nat.add_sub_cancel_left, List.take_left]

theorem sliceFrom_append (a b : Bytes) {start : ℕ} (hstart : start = a.length) :
    sliceFrom (a ++ b) start = some b := by
  subst hstart
  simp [sliceFrom]

/-! ## Encoders -/

/-- The header of a part: its kind, the id of the packet and the sequence index. -/
def partHeader (last : Bool) (id : PacketId) (seqIndex : ℕ) : Bytes :=
  [(if last then PacketKind.lastPart else PacketKind.part).toByte] ++ id.bytes ++
    SeqIndex.toLeBytes seqIndex

@[simp] theorem length_partHeader (last : Bool) (id : PacketId) (seqIndex : ℕ) :
    (partHeader last id seqIndex).length = headerLen := by
  simp [partHeader, id.length_bytes, headerLen, packetKindSize, packetIdSize, seqIndexSize]

/-- The datagram of a part. -/
def partDatagram (last : Bool) (id : PacketId) (seqIndex : ℕ) (payload : Bytes) : Bytes :=
  partHeader last id seqIndex ++ payload

/-- The buffer that `ack` fills in. -/
def ackDatagram (id : PacketId) (seqIndex : ℕ) : Bytes :=
  let buf := List.replicate (17 + seqIndexSize) 0
  let buf := Chunking.splice buf 0 [PacketKind.ack.toByte]
  let buf := Chunking.splice buf 1 id.bytes
  Chunking.splice buf 17 (SeqIndex.toLeBytes seqIndex)

/-- The buffer that `done` fills in. -/
def doneDatagram (id : PacketId) : Bytes :=
  let buf := List.replicate 17 0
  let buf := Chunking.splice buf 0 [PacketKind.done.toByte]
  Chunking.splice buf 1 id.bytes

theorem ackDatagram_eq (id : PacketId) (seqIndex : ℕ) :
    ackDatagram id seqIndex =
      [PacketKind.ack.toByte] ++ id.bytes ++ SeqIndex.toLeBytes seqIndex := by
  have hid := id.length_bytes
  simp [ackDatagram, Chunking.splice, seqIndexSize, hid]

theorem doneDatagram_eq (id : PacketId) :
    doneDatagram id = [PacketKind.done.toByte] ++ id.bytes := by
  have hid := id.length_bytes
  simp [doneDatagram, Chunking.splice, hid]

/-- A `Done` is no part. -/
theorem doneDatagram_append_ne_partDatagram {last : Bool} {id id' : PacketId} {seqIndex : ℕ}
    {payload rest : Bytes} : doneDatagram id ++ rest ≠ partDatagram last id' seqIndex payload := by
  intro h
  have hhead := congrArg List.head? h
  rw [doneDatagram_eq] at hhead
  cases last <;> simp [partDatagram, partHeader, PacketKind.toByte] at hhead

/-! ## Errors -/

/-- An ack names a part that is not available. -/
structure SeqIndexAckedBeforeSent where
  seqIndex : ℕ
  deriving DecidableEq

/-- Why an ack is rejected. -/
inductive PacketAckErrorKind
  | invalidPacketId
  | seqIndexAckedBeforeSent (error : SeqIndexAckedBeforeSent)
  deriving DecidableEq

/-- A rejected ack. -/
structure PacketAckError where
  id : PacketId
  kind : PacketAckErrorKind
  deriving DecidableEq

/-- Why a part is rejected. -/
inductive PacketReceiveErrorKind
  /-- A packet with this id already exists with a different type. -/
  | mismatch
  | io (error : IoError)
  deriving DecidableEq

/-- A rejected part. -/
structure PacketReceiveError where
  id : PacketId
  kind : PacketReceiveErrorKind
  deriving DecidableEq

/-- Why a datagram is not handled. -/
inductive HandlePacketError
  | empty
  | malformed
  | receive (error : PacketReceiveError)
  | ack (error : PacketAckError)
  | unexpectedKind (kind : UInt8)
  deriving DecidableEq

/-! ## Sending acks and `Done` -/

/-- Ack a part.  That the socket would block is ignored, as the ack may get lost just as well. -/
def ack (id : PacketId) (seqIndex : ℕ) (addr : SocketAddr) (env : Env) :
    Except PacketReceiveError Unit × Env :=
  match env.send addr (ackDatagram id seqIndex) with
  | (.ok _, env) => (.ok (), env)
  | (.error error, env) => (.error ⟨id, .io error⟩, env)

/-- An ack is sent or not, and fails only if the socket does. -/
theorem ack_spec (id : PacketId) (seqIndex : ℕ) (addr : SocketAddr) (env : Env) :
    ∃ sent, (ack id seqIndex addr env).2 = env.record [(addr, ackDatagram id seqIndex)] sent ∧
      (∀ datagram ∈ sent, datagram = (addr, ackDatagram id seqIndex)) ∧
      ((∃ error, (ack id seqIndex addr env).1 = .error ⟨id, .io error⟩ ∧ ¬env.NoError) ∨
        (ack id seqIndex addr env).1 = .ok ()) := by
  unfold ack
  rcases env.send_cases addr (ackDatagram id seqIndex) with
    ⟨hsend, -⟩ | ⟨hsend, -⟩ | ⟨error, hsend, hanswer⟩
  · exact ⟨_, by rw [hsend], by simp, Or.inr (by rw [hsend])⟩
  · exact ⟨_, by rw [hsend], by simp, Or.inr (by rw [hsend])⟩
  · exact ⟨_, by rw [hsend], by simp,
      Or.inl ⟨error, by rw [hsend], fun hno => hno _ _ _ hanswer⟩⟩

/-- Tell the receiver that no more parts of a packet are sent. -/
def done (id : PacketId) (addr : SocketAddr) (env : Env) : IoResult Bool × Env :=
  env.send addr (doneDatagram id)

end Ultinet
