import Ultinet.Packet.Buffers

/-!
# What clients and servers share

`config.rs`, `net.rs` and the types of packets of `packet.rs`.

`Packets` are the types that a user of the library chooses.  How `rkyv` serializes the packets of a
connection, and which bytes it accepts, is not part of the library; `Rkyv` is what a development
over it is parametrized with.  An archived packet stands for the packet that was serialized.
-/

namespace Ultinet

/-! ## Configuration -/

/-- Connection related configuration for both server and client. -/
structure ConnectionConfig where
  /-- How long to wait before trying to send a packet again. -/
  resendDelay : ℕ
  /-- How often a packet is resent before getting canceled. -/
  maxMissedAcks : Option ℕ
  /-- How long to wait for new data before timing out an incoming packet. -/
  receiveTimeout : Option ℕ
  /-- How many packets are sent at once initially for new connections. -/
  initialSendBatchSize : NonZeroBatchSize
  /-- A packet that requires more than this number of chunks is serialized in the background. -/
  backgroundSerializationThreshold : ℕ

namespace ConnectionConfig

/-- The default configuration, with times in milliseconds. -/
def default : ConnectionConfig where
  resendDelay := 1000
  maxMissedAcks := some 3
  receiveTimeout := some 10000
  initialSendBatchSize := ⟨8, by decide⟩
  backgroundSerializationThreshold := 8

end ConnectionConfig

/-- Client specific configuration. -/
structure ClientConfig where
  connection : ConnectionConfig
  /-- How long to wait for a packet before disconnecting. -/
  timeout : Option ℕ

namespace ClientConfig

@[inherit_doc ConnectionConfig.default] def default : ClientConfig where
  connection := .default
  timeout := some 10000

end ClientConfig

/-- Server specific configuration. -/
structure ServerConfig where
  connection : ConnectionConfig
  /-- How long to wait between each ping. -/
  pingDelay : ℕ
  /-- After how many missing pongs a client is timed out. -/
  maxMissedPongs : Option ℕ

namespace ServerConfig

@[inherit_doc ConnectionConfig.default] def default : ServerConfig where
  connection := .default
  pingDelay := 2500
  maxMissedPongs := some 3

end ServerConfig

/-! ## The types of packets -/

/-- Version information, which fits into the data section of a packet. -/
class VersionPacket (α : Type) where
  write : α → { bytes : Bytes // bytes.length ≤ packetDataSize }
  read : Bytes → Option α

/-- The types of packets of a connection. -/
structure Packets where
  /-- Sent out by the server upon the client requesting its version by sending an empty packet. -/
  Version : Type
  [versionPacket : VersionPacket Version]
  /-- Contains additional information in case of a version mismatch. -/
  CompatibilityError : Type
  Query : Type
  Status : Type
  Connect : Type
  Disconnect : Type
  Accept : Type
  Reject : Type
  Kick : Type
  /-- User-defined packet sent by the server. -/
  Server : Type
  /-- User-defined packet sent by the client. -/
  Client : Type

attribute [instance] Packets.versionPacket

/-- Server packets for dealing with client connections. -/
inductive ServerConnectionPacket (P : Packets)
  | status (status : P.Status)
  | accept (accept : P.Accept)
  | reject (reject : P.Reject)
  | kick (kick : P.Kick)
  | user (packet : P.Server)

/-- Client packets for establishing a server connection. -/
inductive ClientConnectionPacket (P : Packets)
  | query (query : P.Query)
  | connect (connect : P.Connect)
  | disconnect (disconnect : P.Disconnect)
  | user (packet : P.Client)

/-- Why a packet fails its validation. -/
structure ValidationError where
  message : String
  deriving DecidableEq

/-- How packets are serialized, as the sequence of the writes to the serializer, and validated.  The
packets of the caller bring their own validation with them, which may not return. -/
class Rkyv (P : Packets) where
  serializeServer : ServerConnectionPacket P → List Bytes
  serializeClient : ClientConnectionPacket P → List Bytes
  checkServer : Bytes → Exec (Except ValidationError (ServerConnectionPacket P))
  checkClient : Bytes → Exec (Except ValidationError (ClientConnectionPacket P))

/-! ### The default packets -/

/-- Does not contain any version information but only accepts empty packets in response as well. -/
instance : VersionPacket Unit where
  write _ := ⟨[], Nat.zero_le _⟩
  read bytes := if bytes.isEmpty then some () else none

/-- Packets without any content. -/
abbrev DefaultPackets : Packets where
  Version := Unit
  CompatibilityError := Empty
  Query := Unit
  Status := Unit
  Connect := Unit
  Disconnect := Unit
  Accept := Unit
  Reject := Unit
  Kick := Unit
  Server := Empty
  Client := Empty

/-- `ArchivedNoPacket::check_bytes`: there is no packet, so the match on it has no cases. -/
def checkNoPacket {α : Type} : Exec (Except ValidationError α) :=
  .error .unreachable

/-- What the tags of a server packet without content stand for. -/
def serverTags : List (UInt8 × Exec (Except ValidationError (ServerConnectionPacket DefaultPackets))) :=
  [(0, .ok (.ok (.status ()))), (1, .ok (.ok (.accept ()))), (2, .ok (.ok (.reject ()))),
    (3, .ok (.ok (.kick ()))), (4, checkNoPacket)]

/-- What the tags of a client packet without content stand for. -/
def clientTags : List (UInt8 × Exec (Except ValidationError (ClientConnectionPacket DefaultPackets))) :=
  [(0, .ok (.ok (.query ()))), (1, .ok (.ok (.connect ()))), (2, .ok (.ok (.disconnect ()))),
    (3, checkNoPacket)]

/-- The packet of an archive.  Its root is a tag at the end, whatever is before it. -/
def checkTag {α : Type} (tags : List (UInt8 × Exec (Except ValidationError α))) (bytes : Bytes) :
    Exec (Except ValidationError α) :=
  match bytes.getLast? with
  | none => .ok (.error ⟨"no root"⟩)
  | some tag => (tags.lookup tag).getD (.ok (.error ⟨"invalid tag"⟩))

/-- A packet without content is archived as its tag. -/
instance : Rkyv DefaultPackets where
  serializeServer
    | .status _ => [[0]]
    | .accept _ => [[1]]
    | .reject _ => [[2]]
    | .kick _ => [[3]]
    | .user packet => nomatch packet
  serializeClient
    | .query _ => [[0]]
    | .connect _ => [[1]]
    | .disconnect _ => [[2]]
    | .user packet => nomatch packet
  checkServer := checkTag serverTags
  checkClient := checkTag clientTags

/-! ## What is reported to a handler -/

/-- What is known about a part that was received. -/
inductive PartInfo
  | pending
  | reassembled
  | duplicate
  deriving DecidableEq

/-- An update for an outgoing or incoming packet. -/
inductive RawPacket
  | part (senderAddr : SocketAddr) (info : PartInfo)
  | done (senderAddr : SocketAddr) (knownPacket : Bool)
  | ack (receiverAddr : SocketAddr) (duplicate : Bool)
  deriving DecidableEq

/-- The errors that are reported to a handler. -/
inductive HandlerError
  | recv (error : IoError)
  | send (receiverAddr : SocketAddr) (error : IoError)
  | packetValidation (senderAddr : SocketAddr) (error : ValidationError)
  | handle (senderAddr : SocketAddr) (error : HandlePacketError)
  | timeout (peerAddr : SocketAddr)
  deriving DecidableEq

/-! ## Receiving -/

/-- What the socket has to read during a call: some datagrams, and then it would block or fails. -/
structure Incoming where
  datagrams : List (SocketAddr × Bytes) := []
  error : Option IoError := none

/-- The bytes of a datagram that fit into the buffer it is received in. -/
def recv (datagram : Bytes) : Bytes :=
  datagram.take packetBufferSize

theorem recv_of_length_le {datagram : Bytes} (h : datagram.length ≤ packetBufferSize) :
    recv datagram = datagram :=
  List.take_of_length_le h

end Ultinet
