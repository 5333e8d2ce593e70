import Ultinet.Packet.Dispatch
import Ultinet.Packet.Transfer

/-!
# Two peers that exchange packets

Both ends of a connection have packet buffers, send packets to each other at the same time, and forget
packets that time out.  Everything a peer ever sent stays in the network, and any of it may arrive at
the other peer at any time and any number of times.

A datagram of one direction acks parts of the other, so the two directions are not apart on the wire.
They are apart in what the peers make of them: `half` is what a run looks like in one direction, and
every step of the peers is a step of the transfer in that direction, or the receiver forgets packets
(`step_moves`).  So whatever these moves preserve holds in both directions of every run
(`Duplex.invariant`).
-/

namespace Ultinet

/-! ## The system -/

/-- One of two peers. -/
inductive Side
  | left
  | right
  deriving DecidableEq

/-- The other peer. -/
def Side.other : Side → Side
  | .left => .right
  | .right => .left

@[simp] theorem Side.other_other (side : Side) : side.other.other = side := by
  cases side <;> rfl

theorem Side.other_ne (side : Side) : side.other ≠ side := by
  cases side <;> decide

theorem Side.eq_or_eq_other (side k : Side) : k = side ∨ k = side.other := by
  cases side <;> cases k <;> decide

/-- A peer: its buffers, the packets it was asked to send, everything it sent, and the packets it
reassembled. -/
structure Peer where
  buffers : PacketBuffers
  log : List (PacketId × Bytes)
  sent : List Bytes
  reports : List (PacketId × Bytes)

/-- What can happen to a peer. -/
inductive PeerInput
  /-- It sends a packet. -/
  | send (threshold : ℕ) (value : List Bytes) (env : Env)
  /-- It forgets packets that timed out, and sends pending parts. -/
  | update (resendDelay : ℕ) (maxMissedAcks receiveTimeout : Option ℕ) (env : Env)
  /-- A datagram arrives. -/
  | handle (buf : Bytes) (env : Env)

/-- The packet that was reassembled by handling a datagram. -/
def reassembledBy (buf : Bytes) : Except HandlePacketError PacketHandling → List (PacketId × Bytes)
  | .ok (.received (.reassembled payload)) => (datagramId buf).toList.map fun id => (id, payload)
  | _ => []

namespace Peer

/-- A peer that was not asked to do anything yet. -/
def init (batchSize : NonZeroBatchSize) : Peer where
  buffers := .new batchSize
  log := []
  sent := []
  reports := []

/-- What a peer does, whose packets go to an address; there is nothing if the code panics. -/
def step (addr : SocketAddr) (p : Peer) : PeerInput → Option Peer
  | .send threshold value env =>
      match p.buffers.send value threshold addr env.start with
      | .error _ => none
      | .ok (_, buffers, env') => some
          { p with
            buffers
            log := p.log ++ [(env.uuid 0, value.flatten)]
            sent := p.sent ++ env'.sent.map Prod.snd }
  | .update resendDelay maxMissedAcks receiveTimeout env =>
      let (_, buffers, env') :=
        p.buffers.update resendDelay maxMissedAcks receiveTimeout addr env.start
      some { p with buffers, sent := p.sent ++ env'.sent.map Prod.snd }
  | .handle buf env =>
      match p.buffers.handle buf addr env.start with
      | .error _ => none
      | .ok (result, buffers, env') => some
          { p with
            buffers
            sent := p.sent ++ env'.sent.map Prod.snd
            reports := p.reports ++ reassembledBy buf result }

end Peer

/-- Two peers. -/
abbrev Duplex := Side → Peer

namespace Duplex

/-- The beginning. -/
def init (batchSize : Side → NonZeroBatchSize) : Duplex :=
  fun side => .init (batchSize side)

/-- One step of one of the peers. -/
def step (addr : Side → SocketAddr) (d : Duplex) : Side × PeerInput → Option Duplex
  | (side, input) => ((d side).step (addr side.other) input).map fun p => Function.update d side p

/-- The transition system of peers with given addresses. -/
def system (addr : Side → SocketAddr) : Lts Duplex (Side × PeerInput) where
  step := step addr

/-- Ids are fresh, packets take fewer than `2 ^ 32` parts, and what arrives at a peer was sent by the
other one. -/
def Genuine (d : Duplex) : Side × PeerInput → Prop
  | (side, .send _ value env) =>
      env.uuid 0 ∉ (d side).log.map Prod.fst ∧ chunkCount value.flatten < seqIndexBound
  | (side, .handle buf _) => buf ∈ (d side.other).sent
  | _ => True

instance decidableGenuine (d : Duplex) : (e : Side × PeerInput) → Decidable (Genuine d e)
  | (_, .send _ _ _) => inferInstanceAs (Decidable (_ ∧ _))
  | (side, .handle buf _) => inferInstanceAs (Decidable (buf ∈ (d side.other).sent))
  | (_, .update _ _ _ _) => inferInstanceAs (Decidable True)

end Duplex

/-! ## The directions on the wire -/

/-- The datagram acks a part. -/
def isAck (buf : Bytes) : Bool :=
  decide (buf.head? = some PacketKind.ack.toByte)

@[simp] theorem isAck_ackDatagram (id : PacketId) (i : ℕ) : isAck (ackDatagram id i) = true := by
  rw [ackDatagram_eq]
  rfl

@[simp] theorem isAck_doneDatagram (id : PacketId) : isAck (doneDatagram id) = false := by
  rw [doneDatagram_eq]
  rfl

@[simp] theorem isAck_chunkDatagram (id : PacketId) (payload : Bytes) (i : ℕ) :
    isAck (chunkDatagram id payload i) = false := by
  unfold chunkDatagram partDatagram partHeader isAck
  split <;> rfl

theorem isAck_of_belongsTo {log : List (PacketId × Bytes)} {buf : Bytes} (h : Transfer.BelongsTo log buf) :
    isAck buf = false := by
  obtain ⟨id, payload, -, rfl | ⟨i, -, rfl⟩⟩ := h
  · exact isAck_doneDatagram id
  · exact isAck_chunkDatagram id payload i

/-- The receive buffer leaves everything alone that acks a part. -/
theorem ReceivePacketBuffer.handle_of_isAck (b : ReceivePacketBuffer) {buf : Bytes}
    (hack : isAck buf = true) (addr : SocketAddr) (env : Env) :
    b.handle buf addr env = .ok (.ok .unhandled, b, env) := by
  have hhead : buf.head? = some PacketKind.ack.toByte := of_decide_eq_true hack
  simp only [handle_eq, handleFields, hhead, PacketKind.tryFrom_toByte]

/-- The send buffer leaves everything else alone. -/
theorem SendPacketBuffer.handle_of_not_isAck (b : SendPacketBuffer) {byte : UInt8} {rest : Bytes}
    (hack : isAck (byte :: rest) = false) :
    b.handleFields (byte :: rest) = (.ok .unhandled, b) := by
  have hkind : PacketKind.tryFrom byte ≠ some .ack := by
    intro heq
    rw [← PacketKind.toByte_of_tryFrom heq] at hack
    cases hack
  unfold handleFields
  dsimp only [List.head?_cons]
  split
  · rename_i heq
    exact absurd heq hkind
  · rfl

/-- Handling a datagram is handling it with either buffer. -/
theorem PacketBuffers.handle_halves {b b' : PacketBuffers} {buf : Bytes} {addr : SocketAddr}
    {env env' : Env} {result : Except HandlePacketError PacketHandling}
    (h : b.handle buf addr env = .ok (result, b', env')) :
    ∃ received, b.receiveBuffer.handle buf addr env = .ok (received, b'.receiveBuffer, env') ∧
      b'.sendBuffer = (b.sendBuffer.handleFields buf).2 ∧
      reassembledBy buf result = reportOf buf received := by
  cases buf with
  | nil =>
    cases h
    exact ⟨.error .empty, rfl, rfl, rfl⟩
  | cons byte rest =>
    unfold handle at h
    obtain ⟨⟨received, receiveBuffer, env''⟩, hreceive, h⟩ := exists_of_bind_ok h
    by_cases hack : isAck (byte :: rest) = true
    · have hunhandled := b.receiveBuffer.handle_of_isAck hack addr env
      rw [hunhandled] at hreceive
      cases hreceive
      rcases hsend : b.sendBuffer.handleFields (byte :: rest) with ⟨handled, sendBuffer⟩
      simp only [SendPacketBuffer.handle_eq, hsend, bind, Except.bind, pure, Except.pure] at h
      split at h <;> cases h <;> exact ⟨_, hunhandled, rfl, rfl⟩
    · have hunhandled := b.sendBuffer.handle_of_not_isAck (eq_false_of_ne_true hack)
      simp only [SendPacketBuffer.handle_eq, hunhandled, bind, Except.bind, pure, Except.pure] at h
      rw [hunhandled]
      split at h <;> cases h
      · exact ⟨_, hreceive, rfl, rfl⟩
      · exact ⟨_, hreceive, rfl, by cases ‹ReceivedPacket› <;> rfl⟩
      · exact ⟨_, hreceive, rfl, rfl⟩
      · exact ⟨_, hreceive, rfl, rfl⟩

/-! ## Each direction is a transfer -/

namespace Transfer

variable {senderAddr receiverAddr : SocketAddr} {s t : Transfer}

/-- One direction of what two peers do: a step of a transfer, or the receiver forgets the packets of
which it did not receive anything for a long time. -/
inductive Move (senderAddr receiverAddr : SocketAddr) : Transfer → Transfer → Prop
  | step {s t : Transfer} (e : TransferEvent) (hgenuine : Genuine s e)
      (hstep : step senderAddr receiverAddr s e = some t) : Move senderAddr receiverAddr s t
  | forget (s : Transfer) (timeout : ℕ) (env : Env) :
      Move senderAddr receiverAddr s { s with receiver := s.receiver.timeoutPackets timeout env }

/-- What is known of a packet after the receiver forgot it, or did not. -/
theorem Honest.forget (h : Honest s) (timeout : ℕ) (env : Env) :
    Honest { s with receiver := s.receiver.timeoutPackets timeout env } where
  network := h.network
  small := h.small
  nodup := h.nodup
  sending := h.sending
  knows := by
    intro id payload hmem
    obtain ⟨S, hS⟩ := h.knows id payload hmem
    simp only [ReceivePacketBuffer.timeoutPackets, SortedMap.get?_retain]
    cases hget : s.receiver.packets.get? id with
    | none => exact ⟨∅, rfl⟩
    | some entry =>
      rw [hget] at hS
      rw [Option.filter_some]
      split_ifs with hkept
      · exact ⟨S, hS⟩
      · exact ⟨∅, rfl⟩
  unknown := by
    intro id hid
    simp only [ReceivePacketBuffer.timeoutPackets, SortedMap.get?_retain, h.unknown id hid]
    rfl

theorem Move.honest (h : Honest s) (hmove : Move senderAddr receiverAddr s t) : Honest t := by
  cases hmove with
  | step e hgenuine hstep => exact h.step hgenuine hstep
  | forget timeout env => exact h.forget timeout env

/-- **The rule for moves.**  What is preserved by the moves of an honest sender is preserved by any
number of them. -/
theorem moves_invariant {I : Transfer → Prop}
    (hI : ∀ s t, Honest s → I s → Move senderAddr receiverAddr s t → I t)
    (hmoves : Relation.ReflTransGen (Move senderAddr receiverAddr) s t) (h : Honest s) (hs : I s) :
    Honest t ∧ I t := by
  induction hmoves with
  | refl => exact ⟨h, hs⟩
  | tail _ hmove ih => exact ⟨hmove.honest ih.1, hI _ _ ih.1 ih.2 hmove⟩

end Transfer

/-! ## What a receiver gives back -/

namespace Transfer

variable {senderAddr receiverAddr : SocketAddr} {s t : Transfer}

/-- The datagram acks a part of a packet that was sent. -/
def AcksPart (log : List (PacketId × Bytes)) (buf : Bytes) : Prop :=
  ∃ id payload i, (id, payload) ∈ log ∧ i < chunkCount payload ∧ buf = ackDatagram id i

theorem AcksPart.mono {log log' : List (PacketId × Bytes)} {buf : Bytes} (h : AcksPart log buf)
    (hsub : log ⊆ log') : AcksPart log' buf := by
  obtain ⟨id, payload, i, hmem, hi, hbuf⟩ := h
  exact ⟨id, payload, i, hsub hmem, hi, hbuf⟩

/-- What a datagram of an honest sender makes the receiver do: it acks parts that were sent, and
reassembles packets that were sent. -/
theorem Honest.atReceiver (h : Honest s) {buf : Bytes} {env : Env} (hbuf : buf ∈ s.toReceiver)
    (hstep : Transfer.step senderAddr receiverAddr s (.atReceiver buf env) = some t) :
    ∃ receiver acks reports,
      t = { s with receiver, toSender := s.toSender ++ acks, reports := s.reports ++ reports } ∧
      (∀ ack ∈ acks, AcksPart s.log ack) ∧ reports ⊆ s.log := by
  obtain ⟨id, payload, hmem, rfl | ⟨i, hi, rfl⟩⟩ := h.network buf hbuf
  · obtain rfl := step_done hstep
    exact ⟨_, [], [], by rw [List.append_nil, List.append_nil], by simp, by simp⟩
  · obtain ⟨S, hS⟩ := h.knows id payload hmem
    obtain ⟨receiver, acks, reports, rfl, -, -, hacks, hreports⟩ :=
      step_part hS (h.small _ hmem) hi hstep
    refine ⟨receiver, acks, reports, rfl, fun ack hack => ⟨id, payload, i, hmem, hi, hacks ack hack⟩,
      ?_⟩
    rcases hreports with ⟨rfl, -⟩ | ⟨rfl, -⟩
    · exact List.nil_subset _
    · exact List.cons_subset.mpr ⟨hmem, List.nil_subset _⟩

end Transfer

namespace Duplex

open Transfer (Honest Move)

variable {addr : Side → SocketAddr} {d d' : Duplex} {side : Side}

/-- What a run looks like in the direction of what a peer sends. -/
def half (d : Duplex) (side : Side) : Transfer where
  sender := (d side).buffers.sendBuffer
  receiver := (d side.other).buffers.receiveBuffer
  log := (d side).log
  toReceiver := (d side).sent.filter fun buf => !isAck buf
  toSender := (d side.other).sent.filter isAck
  reports := (d side.other).reports

/-- The direction of what a peer sends, after the peer did something. -/
theorem half_update_self (p : Peer) : half (Function.update d side p) side =
    { half d side with
      sender := p.buffers.sendBuffer
      log := p.log
      toReceiver := p.sent.filter fun buf => !isAck buf } := by
  simp [half, Function.update_of_ne (Side.other_ne side)]

/-- The direction of what a peer receives, after the peer did something. -/
theorem half_update_other (p : Peer) : half (Function.update d side p) side.other =
    { half d side.other with
      receiver := p.buffers.receiveBuffer
      toSender := p.sent.filter isAck
      reports := p.reports } := by
  simp [half, Function.update_of_ne (Side.other_ne side)]

/-- What is sent in one direction. -/
theorem filter_not_isAck (sent : List Bytes) {new : List Bytes}
    (hnew : ∀ buf ∈ new, isAck buf = false) :
    (sent ++ new).filter (fun buf => !isAck buf) = (sent.filter fun buf => !isAck buf) ++ new ∧
      (sent ++ new).filter isAck = sent.filter isAck := by
  rw [List.filter_append, List.filter_append]
  constructor
  · congr 1
    exact List.filter_eq_self.mpr fun buf hbuf => by rw [hnew buf hbuf]; rfl
  · have hnil : new.filter isAck = [] :=
      List.filter_eq_nil_iff.mpr fun buf hbuf => by rw [hnew buf hbuf]; decide
    rw [hnil, List.append_nil]

/-- What is sent back in the other direction. -/
theorem filter_isAck (sent : List Bytes) {new : List Bytes}
    (hnew : ∀ buf ∈ new, isAck buf = true) :
    (sent ++ new).filter (fun buf => !isAck buf) = (sent.filter fun buf => !isAck buf) ∧
      (sent ++ new).filter isAck = sent.filter isAck ++ new := by
  rw [List.filter_append, List.filter_append]
  constructor
  · have hnil : (new.filter fun buf => !isAck buf) = [] :=
      List.filter_eq_nil_iff.mpr fun buf hbuf => by rw [hnew buf hbuf]; decide
    rw [hnil, List.append_nil]
  · congr 1
    exact List.filter_eq_self.mpr hnew

/-- A packet is sent. -/
theorem send_moves {threshold : ℕ} {value : List Bytes} {env : Env} (hd : Honest (half d side))
    (hgenuine : Genuine d (side, .send threshold value env))
    (h : step addr d (side, .send threshold value env) = some d') :
    Move (addr side) (addr side.other) (half d side) (half d' side) ∧
      half d' side.other = half d side.other := by
  simp only [step, Peer.step, PacketBuffers.send] at h
  cases hsend : (d side).buffers.sendBuffer.send value threshold (addr side.other) env.start with
  | error abort => simp [hsend, bind, Except.bind] at h
  | ok sent =>
    obtain ⟨result, sendBuffer, env'⟩ := sent
    simp only [hsend, bind, Except.bind, pure, Except.pure, Option.map_some, Option.some.injEq] at h
    subst h
    have hstep : Transfer.step (addr side) (addr side.other) (half d side)
        (.send threshold value env) = some
          { half d side with
            sender := sendBuffer
            log := (d side).log ++ [(env.uuid 0, value.flatten)]
            toReceiver := (half d side).toReceiver ++ env'.sent.map Prod.snd } := by
      simp only [Transfer.step, half, hsend]
    have hmove := Move.step (s := half d side) (.send threshold value env) hgenuine hstep
    have hnew : ∀ buf ∈ env'.sent.map Prod.snd, isAck buf = false := fun buf hbuf =>
      isAck_of_belongsTo ((hmove.honest hd).network buf (List.mem_append_right _ hbuf))
    obtain ⟨hself, hother⟩ := filter_not_isAck (d side).sent hnew
    rw [half_update_self, half_update_other]
    refine ⟨?_, ?_⟩
    · rw [hself]
      exact hmove
    · rw [hother]
      simp [half]

/-- Packets that timed out are forgotten, and pending parts are sent. -/
theorem update_moves {resendDelay : ℕ} {maxMissedAcks receiveTimeout : Option ℕ} {env : Env}
    (hd : Honest (half d side))
    (h : step addr d (side, .update resendDelay maxMissedAcks receiveTimeout env) = some d') :
    Relation.ReflTransGen (Move (addr side) (addr side.other)) (half d side) (half d' side) ∧
      Relation.ReflTransGen (Move (addr side.other) (addr side)) (half d side.other)
        (half d' side.other) := by
  set b := (d side).buffers.timeoutPackets maxMissedAcks receiveTimeout env.start with hb
  -- the packets that missed too many acks are forgotten first
  have htimeout : Relation.ReflTransGen (Move (addr side) (addr side.other)) (half d side)
      { half d side with sender := b.sendBuffer } := by
    cases maxMissedAcks with
    | none => exact Relation.ReflTransGen.refl
    | some m =>
      exact Relation.ReflTransGen.single (.step (s := half d side) (.timeoutPackets m) trivial rfl)
  have hd' := (Transfer.moves_invariant (I := fun _ => True) (fun _ _ _ _ _ => trivial) htimeout hd
    trivial).1
  -- then pending parts are sent
  rcases hsend : b.sendBuffer.sendPending resendDelay (addr side.other) env.start with
    ⟨result, sendBuffer, env'⟩
  have hmove : Move (addr side) (addr side.other) { half d side with sender := b.sendBuffer }
      { half d side with
        sender := sendBuffer
        toReceiver := (half d side).toReceiver ++ env'.sent.map Prod.snd } :=
    .step (.sendPending resendDelay env) trivial (by simp only [Transfer.step, hsend])
  have hnew : ∀ buf ∈ env'.sent.map Prod.snd, isAck buf = false := fun buf hbuf =>
    isAck_of_belongsTo ((hmove.honest hd').network buf (List.mem_append_right _ hbuf))
  obtain ⟨hself, hother⟩ := filter_not_isAck (d side).sent hnew
  simp only [step, Peer.step, PacketBuffers.update, ← hb, hsend, Option.map_some,
    Option.some.injEq] at h
  subst h
  rw [half_update_self, half_update_other]
  refine ⟨htimeout.tail ?_, ?_⟩
  · rw [hself]
    exact hmove
  · rw [hother]
    cases receiveTimeout with
    | none => simpa [half, hb, PacketBuffers.timeoutPackets] using Relation.ReflTransGen.refl
    | some timeout =>
      have hforget : Move (addr side.other) (addr side) (half d side.other) _ :=
        .forget (half d side.other) timeout env.start
      refine Relation.ReflTransGen.single ?_
      simpa [half, hb, PacketBuffers.timeoutPackets] using hforget

/-- A datagram arrives. -/
theorem handle_moves {buf : Bytes} {env : Env} (hd : Honest (half d side.other))
    (hgenuine : Genuine d (side, .handle buf env))
    (h : step addr d (side, .handle buf env) = some d') :
    Move (addr side) (addr side.other) (half d side) (half d' side) ∧
      Relation.ReflTransGen (Move (addr side.other) (addr side)) (half d side.other)
        (half d' side.other) := by
  simp only [step, Peer.step] at h
  cases hhandle : (d side).buffers.handle buf (addr side.other) env.start with
  | error abort => simp [hhandle] at h
  | ok handled =>
    obtain ⟨result, b', env'⟩ := handled
    simp only [hhandle, Option.map_some, Option.some.injEq] at h
    subst h
    obtain ⟨received, hreceive, hsend, hreports⟩ := PacketBuffers.handle_halves hhandle
    -- the direction in which the datagram was sent, and what was sent back
    have hother : (∀ ack ∈ env'.sent.map Prod.snd, isAck ack = true) ∧
        Relation.ReflTransGen (Move (addr side.other) (addr side)) (half d side.other)
          { half d side.other with
            receiver := b'.receiveBuffer
            toSender := (half d side.other).toSender ++ env'.sent.map Prod.snd
            reports := (d side).reports ++ reassembledBy buf result } := by
      by_cases hack : isAck buf = true
      · rw [(d side).buffers.receiveBuffer.handle_of_isAck hack] at hreceive
        simp only [Except.ok.injEq, Prod.mk.injEq] at hreceive
        obtain ⟨rfl, hsame, rfl⟩ := hreceive
        rw [hreports, ← hsame]
        exact ⟨by simp, by simpa [half, reportOf] using Relation.ReflTransGen.refl⟩
      · have hbuf : buf ∈ (half d side.other).toReceiver :=
          List.mem_filter.mpr ⟨hgenuine, by simpa using hack⟩
        have hstep : Transfer.step (addr side.other) (addr side) (half d side.other)
            (.atReceiver buf env) = some
              { half d side.other with
                receiver := b'.receiveBuffer
                toSender := (half d side.other).toSender ++ env'.sent.map Prod.snd
                reports := (d side).reports ++ reassembledBy buf result } := by
          simp only [Transfer.step, half, Side.other_other, hreceive, hreports]
        refine ⟨?_, Relation.ReflTransGen.single (.step (.atReceiver buf env) hbuf hstep)⟩
        obtain ⟨receiver, acks, reports, heq, hacks, -⟩ := hd.atReceiver hbuf hstep
        have hsent : env'.sent.map Prod.snd = acks :=
          List.append_cancel_left (congrArg Transfer.toSender heq)
        intro ack hack
        obtain ⟨id, payload, i, -, -, rfl⟩ := hacks ack (hsent ▸ hack)
        exact isAck_ackDatagram id i
    obtain ⟨hnew, hmoves⟩ := hother
    obtain ⟨hkept, hadded⟩ := filter_isAck (d side).sent hnew
    rw [half_update_self, half_update_other]
    refine ⟨?_, ?_⟩
    · rw [hkept, hsend]
      refine .step (s := half d side) (.atSender buf) trivial ?_
      rw [Transfer.step, SendPacketBuffer.handle_eq]
      rfl
    · rw [hadded]
      simpa [half] using hmoves

/-- **Each direction of a step is made of moves.** -/
theorem step_moves {e : Side × PeerInput} (hd : ∀ k, Honest (half d k)) (hgenuine : Genuine d e)
    (h : step addr d e = some d') (k : Side) :
    Relation.ReflTransGen (Move (addr k) (addr k.other)) (half d k) (half d' k) := by
  obtain ⟨side, input⟩ := e
  have hboth : Relation.ReflTransGen (Move (addr side) (addr side.other)) (half d side)
        (half d' side) ∧
      Relation.ReflTransGen (Move (addr side.other) (addr side)) (half d side.other)
        (half d' side.other) := by
    cases input with
    | send threshold value env =>
      obtain ⟨hself, hother⟩ := send_moves (hd side) hgenuine h
      exact ⟨Relation.ReflTransGen.single hself, by rw [hother]⟩
    | update resendDelay maxMissedAcks receiveTimeout env => exact update_moves (hd side) h
    | handle buf env =>
      obtain ⟨hself, hother⟩ := handle_moves (hd side.other) hgenuine h
      exact ⟨Relation.ReflTransGen.single hself, hother⟩
  rcases side.eq_or_eq_other k with rfl | rfl
  · exact hboth.1
  · rw [Side.other_other]
    exact hboth.2

/-- **The rule for two peers.**  What the moves of an honest sender preserve holds in both directions
of every run. -/
theorem invariant {I : Transfer → Prop}
    (hI : ∀ {senderAddr receiverAddr : SocketAddr} {s t : Transfer}, Honest s → I s →
      Move senderAddr receiverAddr s t → I t)
    {batchSize : Side → NonZeroBatchSize} (hinit : ∀ batchSize, I (.init batchSize))
    (hrun : (system addr).GuardedRun Genuine (init batchSize) d) (k : Side) :
    Honest (half d k) ∧ I (half d k) := by
  refine hrun.invariant (I := fun d => ∀ k, Honest (half d k) ∧ I (half d k)) ?_ ?_ k
  · intro d e d' hd hgenuine hstep k
    exact Transfer.moves_invariant (fun _ _ => hI) (step_moves (fun k => (hd k).1) hgenuine hstep k)
      (hd k).1 (hd k).2
  · exact fun k => ⟨Transfer.honest_init (batchSize k), hinit (batchSize k)⟩

end Duplex

/-! ## What is reassembled was sent -/

namespace Transfer

open PacketOut (Sending)

variable {senderAddr receiverAddr : SocketAddr} {s t : Transfer}

/-- The receiver reassembled packets that were sent, and acked parts of packets that were sent. -/
structure Faithful (s : Transfer) : Prop where
  reports : s.reports ⊆ s.log
  acks : ∀ buf ∈ s.toSender, AcksPart s.log buf

theorem faithful_init (batchSize : NonZeroBatchSize) : Faithful (init batchSize) where
  reports := List.nil_subset _
  acks := by simp [init]

theorem Faithful.move (h : Honest s) (hs : Faithful s) (hmove : Move senderAddr receiverAddr s t) :
    Faithful t := by
  cases hmove with
  | forget timeout env => exact ⟨hs.reports, hs.acks⟩
  | step e hgenuine hstep =>
    cases e with
    | send threshold value env =>
      obtain ⟨packets, bufs, rfl, -, -⟩ := step_send hgenuine.2 hstep
      have hsub : s.log ⊆ s.log ++ [(env.uuid 0, value.flatten)] := List.subset_append_left _ _
      exact ⟨fun report hreport => hsub (hs.reports hreport),
        fun buf hbuf => (hs.acks buf hbuf).mono hsub⟩
    | sendPending resendDelay env =>
      simp only [step, Option.some.injEq] at hstep
      subst hstep
      exact ⟨hs.reports, hs.acks⟩
    | timeoutPackets maxMissedAcks =>
      simp only [step, Option.some.injEq] at hstep
      subst hstep
      exact ⟨hs.reports, hs.acks⟩
    | atSender buf =>
      simp only [step, SendPacketBuffer.handle_eq, Option.some.injEq] at hstep
      subst hstep
      exact ⟨hs.reports, hs.acks⟩
    | atReceiver buf env =>
      obtain ⟨receiver, acks, reports, rfl, hacks, hreports⟩ := h.atReceiver hgenuine hstep
      refine ⟨List.append_subset.mpr ⟨hs.reports, hreports⟩, fun ack hack => ?_⟩
      rcases List.mem_append.mp hack with hold | hnew
      · exact hs.acks ack hold
      · exact hacks ack hnew

/-- Nothing of a packet follows its `Done`, and the sender forgot the packet. -/
structure Final (s : Transfer) : Prop where
  last : s.toReceiver.Pairwise fun earlier later =>
    ∀ id, earlier = doneDatagram id → datagramId later ≠ some id
  gone : ∀ id, doneDatagram id ∈ s.toReceiver → s.sender.packets.get? id = none

theorem final_init (batchSize : NonZeroBatchSize) : Final (init batchSize) where
  last := List.Pairwise.nil
  gone := by simp [init]

/-- The sender does not get packets back. -/
theorem Final.of_sender (hs : Final s) (packets : SortedMap PacketId PacketOut)
    (hpackets : ∀ id, s.sender.packets.get? id = none → packets.get? id = none) :
    Final (s.onSender packets s.toReceiver) where
  last := hs.last
  gone := fun id hid => hpackets id (hs.gone id hid)

/-- More is sent of packets whose `Done` was not sent. -/
theorem Final.append (hs : Final s) (packets : SortedMap PacketId PacketOut) {bufs : List Bytes}
    {id : PacketId} (hopen : doneDatagram id ∉ s.toReceiver)
    (hpackets : ∀ id' ≠ id, s.sender.packets.get? id' = none → packets.get? id' = none)
    (hbufs : (∀ buf ∈ bufs, datagramId buf = some id ∧ buf ≠ doneDatagram id) ∨
      bufs = [doneDatagram id] ∧ packets.get? id = none) :
    Final (s.onSender packets (s.toReceiver ++ bufs)) := by
  have hid : ∀ buf ∈ bufs, datagramId buf = some id := by
    rcases hbufs with hparts | ⟨rfl, -⟩
    · exact fun buf hbuf => (hparts buf hbuf).1
    · intro buf hbuf
      rw [List.mem_singleton.mp hbuf, datagramId_doneDatagram]
  have hdone : ∀ id', doneDatagram id' ∈ bufs → id' = id ∧ packets.get? id = none := by
    intro id' hmem
    have heq : id' = id := by
      have := hid _ hmem
      rw [datagramId_doneDatagram] at this
      exact Option.some.inj this
    rcases hbufs with hparts | ⟨-, hnone⟩
    · subst heq
      exact absurd rfl (hparts _ hmem).2
    · exact ⟨heq, hnone⟩
  constructor
  · refine List.pairwise_append.mpr ⟨hs.last, ?_, ?_⟩
    · rcases hbufs with hparts | ⟨rfl, -⟩
      · refine List.pairwise_of_forall_mem_list fun earlier hearlier later _ id' heq => ?_
        subst heq
        obtain ⟨rfl, -⟩ := hdone id' hearlier
        exact absurd rfl (hparts _ hearlier).2
      · exact List.pairwise_singleton _ _
    · rintro earlier hearlier later hlater id' rfl hlate
      rw [hid later hlater] at hlate
      cases hlate
      exact hopen hearlier
  · intro id' hmem
    rcases List.mem_append.mp hmem with hold | hnew
    · refine hpackets id' ?_ (hs.gone id' hold)
      rintro rfl
      exact hopen hold
    · obtain ⟨rfl, hnone⟩ := hdone id' hnew
      exact hnone

/-- Only packets that were sent are done. -/
theorem Honest.done_logged (h : Honest s) {id : PacketId} (hid : doneDatagram id ∈ s.toReceiver) :
    id ∈ s.log.map Prod.fst := by
  obtain ⟨id', payload, hmem, heq | ⟨i, -, heq⟩⟩ := h.network _ hid
  · rw [doneDatagram_injective heq]
    exact List.mem_map_of_mem hmem
  · exact absurd heq.symm chunkDatagram_ne_doneDatagram

theorem Final.move (h : Honest s) (hs : Final s) (hmove : Move senderAddr receiverAddr s t) :
    Final t := by
  cases hmove with
  | forget timeout env => exact ⟨hs.last, hs.gone⟩
  | step e hgenuine hstep =>
    cases e with
    | send threshold value env =>
      obtain ⟨packets, bufs, rfl, hbufs, hpackets⟩ := step_send hgenuine.2 hstep
      have hopen : doneDatagram (env.uuid 0) ∉ s.toReceiver := fun hdone =>
        hgenuine.1 (h.done_logged hdone)
      have hparts : ∀ buf ∈ bufs, datagramId buf = some (env.uuid 0) ∧
          buf ≠ doneDatagram (env.uuid 0) := by
        intro buf hbuf
        obtain ⟨i, -, rfl⟩ := hbufs buf hbuf
        exact ⟨datagramId_chunkDatagram, chunkDatagram_ne_doneDatagram⟩
      have hafter := hs.append packets hopen (fun id hne hnone => ?_) (Or.inl hparts)
      · exact ⟨hafter.last, hafter.gone⟩
      · rcases hpackets with ⟨rfl, -⟩ | ⟨packet, rfl, -⟩
        · exact hnone
        · rw [SortedMap.get?_insert_of_ne hne, hnone]
    | sendPending resendDelay env =>
      have hpass := sendPending_invariant
        (P := fun m net => (∀ id packet, m.get? id = some packet →
          ∃ payload acked, Sending id payload acked packet) ∧ Final (s.onSender m net))
        (fun m net id packet hP hget => by
          obtain ⟨hsending, hfinal⟩ := hP
          obtain ⟨payload, acked, hpacket⟩ := hsending id packet hget
          have hopen : doneDatagram id ∉ net := by
            intro hdone
            have hnone := hfinal.gone id hdone
            exact Option.some_ne_none packet (hget.symm.trans hnone)
          have hothers : ∀ (entry : Option PacketOut) (id' : PacketId), id' ≠ id →
              m.get? id' = none → (m.update id entry).get? id' = none := by
            intro entry id' hne hnone
            rw [SortedMap.get?_update_of_ne hne, hnone]
          refine ⟨payload, acked, hpacket, fun packet' bufs hpacket' _ _ hbufs => ⟨?_, ?_⟩,
            fun _ => ⟨?_, ?_⟩⟩
          · intro id' packet'' hget'
            rw [SortedMap.get?_update] at hget'
            split_ifs at hget' with hid
            · subst hid
              cases hget'
              exact ⟨payload, acked, hpacket'⟩
            · exact hsending id' packet'' hget'
          · refine hfinal.append _ hopen (hothers (some packet')) (Or.inl fun buf hbuf => ?_)
            obtain ⟨i, -, -, rfl⟩ := hbufs buf hbuf
            exact ⟨datagramId_chunkDatagram, chunkDatagram_ne_doneDatagram⟩
          · intro id' packet'' hget'
            rw [SortedMap.get?_update] at hget'
            split_ifs at hget' with hid
            exact hsending id' packet'' hget'
          · refine hfinal.append _ hopen (hothers none) (Or.inr ⟨rfl, ?_⟩)
            rw [SortedMap.get?_update_self])
        s.sender resendDelay receiverAddr env.start s.toReceiver
        (by
          refine ⟨fun id packet hget => ?_, by simpa using (⟨hs.last, hs.gone⟩ : Final
            (s.onSender s.sender.packets s.toReceiver))⟩
          obtain ⟨payload, acked, -, hsending⟩ := h.sending id packet hget
          exact ⟨payload, acked, hsending⟩)
      simp only [step, Option.some.injEq] at hstep
      subst hstep
      exact ⟨hpass.2.last, hpass.2.gone⟩
    | timeoutPackets maxMissedAcks =>
      simp only [step, Option.some.injEq] at hstep
      subst hstep
      have hafter := hs.of_sender (s.sender.timeoutPackets maxMissedAcks).packets
        fun id hnone => by
          rw [SendPacketBuffer.timeoutPackets, SortedMap.get?_retain, hnone]
          rfl
      exact ⟨hafter.last, hafter.gone⟩
    | atSender buf =>
      simp only [step, SendPacketBuffer.handle_eq, Option.some.injEq] at hstep
      subst hstep
      have hafter := hs.of_sender (s.sender.handleFields buf).2.packets fun id hnone => by
        rcases s.sender.handle_cases buf with hsame | ⟨id', seqIndex, hack⟩
        · rw [hsame, hnone]
        · rw [hack, SendPacketBuffer.get?_ack]
          split_ifs with hid
          · rw [← hid, hnone]
            rfl
          · exact hnone
      exact ⟨hafter.last, hafter.gone⟩
    | atReceiver buf env =>
      obtain ⟨receiver, acks, reports, rfl, -, -⟩ := h.atReceiver hgenuine hstep
      exact ⟨hs.last, hs.gone⟩

end Transfer

/-! ## What holds between two peers -/

namespace Duplex

variable {addr : Side → SocketAddr} {d : Duplex} {batchSize : Side → NonZeroBatchSize}

/-- Both peers send a packet at the same time. -/
def bothSend : List (Side × PeerInput) :=
  [(.left, .send 4 [[1], [2]] (.accepting 0)), (.right, .send 4 [[3], [4]] (.accepting 0)),
    (.right, .handle (chunkDatagram (.replicate 7) [1, 2] 0) (.accepting 1)),
    (.left, .handle (chunkDatagram (.replicate 7) [3, 4] 0) (.accepting 1)),
    (.left, .handle (ackDatagram (.replicate 7) 0) (.accepting 2)),
    (.left, .update 0 none none (.accepting 3))]

/-- **Integrity.**  Whatever is lost, duplicated and reordered, whatever either peer forgets and
whichever sends fail or block: a peer reassembles only packets that the other peer was asked to send,
with the bytes they were serialized to. -/
theorem reports_sent (hrun : (system addr).GuardedRun Genuine (init batchSize) d) (k : Side) :
    (d k).reports ⊆ (d k.other).log := by
  have hfaithful := (invariant (fun h hs hmove => Transfer.Faithful.move h hs hmove)
    Transfer.faithful_init hrun k.other).2
  simpa [half] using hfaithful.reports

theorem reports_sent_both :
    ∃ d, (system fun _ => 1).GuardedRun Genuine (init fun _ => ⟨8, by decide⟩) d ∧
      (d .right).reports = [(.replicate 7, [1, 2])] ∧ (d .right).reports ⊆ (d .left).log := by
  obtain ⟨d, hrun, hd⟩ := Lts.exists_guardedRun (system fun _ => 1) Genuine
    (fun d e => decide (Genuine d e)) (init fun _ => ⟨8, by decide⟩) bothSend
    (fun d => (d .right).reports = [(.replicate 7, [1, 2])])
    (fun _ _ _ => of_decide_eq_true) (by decide +kernel)
  exact ⟨d, hrun, of_decide_eq_true hd, reports_sent hrun .right⟩

/-- **A `Done` is the last word.**  Once a peer sent the `Done` of a packet, it never sends anything of
that packet again. -/
theorem nothing_after_done (hrun : (system addr).GuardedRun Genuine (init batchSize) d) (k : Side) :
    ((d k).sent.filter fun buf => !isAck buf).Pairwise fun earlier later =>
      ∀ id, earlier = doneDatagram id → datagramId later ≠ some id :=
  (invariant (fun h hs hmove => Transfer.Final.move h hs hmove) Transfer.final_init hrun k).2.last

theorem nothing_after_done_both :
    ∃ d, (system fun _ => 1).GuardedRun Genuine (init fun _ => ⟨8, by decide⟩) d ∧
      doneDatagram (.replicate 7) ∈ (d .left).sent ∧
      ((d .left).sent.filter fun buf => !isAck buf).Pairwise fun earlier later =>
        ∀ id, earlier = doneDatagram id → datagramId later ≠ some id := by
  obtain ⟨d, hrun, hd⟩ := Lts.exists_guardedRun (system fun _ => 1) Genuine
    (fun d e => decide (Genuine d e)) (init fun _ => ⟨8, by decide⟩) bothSend
    (fun d => doneDatagram (.replicate 7) ∈ (d .left).sent)
    (fun _ _ _ => of_decide_eq_true) (by decide +kernel)
  exact ⟨d, hrun, of_decide_eq_true hd, nothing_after_done hrun .left⟩

/-- An error between honest peers: an ack could not be sent, or an ack came for a packet that is no
longer sent or for a part that is not in the queue. -/
inductive Benign : HandlePacketError → Prop
  | io (id : PacketId) (error : IoError) : Benign (.receive ⟨id, .io error⟩)
  | invalidPacketId (id : PacketId) : Benign (.ack ⟨id, .invalidPacketId⟩)
  | ackedBeforeSent (id : PacketId) (seqIndex : ℕ) :
      Benign (.ack ⟨id, .seqIndexAckedBeforeSent ⟨seqIndex⟩⟩)

/-- A part of a packet is handled without errors but that its ack cannot be sent. -/
theorem handle_chunk_benign {b : PacketBuffers} {id : PacketId} {payload : Bytes} {S : Finset ℕ}
    {i : ℕ} (hknows : Knows payload S (b.receiveBuffer.packets.get? id))
    (hn : chunkCount payload < seqIndexBound) (hi : i < chunkCount payload) (peerAddr : SocketAddr)
    (env : Env) :
    (∀ abort, b.handle (chunkDatagram id payload i) peerAddr env = .error abort →
        abort = .panic "attempt to subtract with overflow") ∧
      ∀ error b' env', b.handle (chunkDatagram id payload i) peerAddr env =
        .ok (.error error, b', env') → Benign error := by
  obtain ⟨kind, rest, hcons⟩ : ∃ kind rest, chunkDatagram id payload i = kind :: rest :=
    ⟨_, _, by simp [chunkDatagram, partDatagram, partHeader]; exact ⟨rfl, rfl⟩⟩
  rcases ReceivePacketBuffer.handle_chunk hknows hn hi peerAddr env with
    ⟨-, hpanic⟩ | ⟨receiveBuffer, hhandle, -, -⟩
  · rw [hcons] at hpanic ⊢
    simp only [PacketBuffers.handle, hpanic]
    refine ⟨fun abort h => ?_, fun error b' env' h => ?_⟩
    · cases h
      rfl
    · cases h
  · rw [hcons] at hhandle ⊢
    simp only [PacketBuffers.handle, hhandle]
    obtain ⟨sent, -, -, ⟨error, herror, -⟩ | hok⟩ := ack_spec id i peerAddr env
    · rw [herror]
      refine ⟨fun abort h => ?_, fun error b' env' h => ?_⟩
      · cases h
      · cases h
        exact .io id _
    · rw [hok]
      exact ⟨fun abort h => (by cases h), fun error b' env' h => (by cases h)⟩

/-- An ack of a part that was sent is handled without errors but that it is no longer expected. -/
theorem handle_ack_benign (b : PacketBuffers) (id : PacketId) {i : ℕ} (hi : i < seqIndexBound)
    (peerAddr : SocketAddr) (env : Env) :
    (∀ abort, b.handle (ackDatagram id i) peerAddr env ≠ .error abort) ∧
      ∀ error b' env', b.handle (ackDatagram id i) peerAddr env = .ok (.error error, b', env') →
        Benign error := by
  have hhandle := b.handle_ack peerAddr env id hi []
  rw [List.append_nil] at hhandle
  rw [hhandle]
  refine ⟨by simp, fun error b' env' h => ?_⟩
  simp only [PacketBuffers.ack, Except.ok.injEq, Prod.mk.injEq] at h
  obtain ⟨herror, -, -⟩ := h
  cases hack : (b.sendBuffer.ack id i).1 with
  | ok duplicate => simp [hack, Except.map, Except.mapError] at herror
  | error kind =>
    simp only [hack, Except.map, Except.mapError, Except.error.injEq] at herror
    subst herror
    unfold SendPacketBuffer.ack at hack
    split at hack
    · cases hack
      exact .invalidPacketId id
    · dsimp only at hack
      split at hack <;> cases hack
      exact .ackedBeforeSent id _

/-- **Honest peers understand each other.**  In every run, every datagram that one peer sent and every
state the other peer is in: handling the datagram has no other error than a failed ack, or an ack that
is no longer expected; and it does not panic but where a part is received again that the receiver has
already drained. -/
theorem handle_benign (hrun : (system addr).GuardedRun Genuine (init batchSize) d) (k : Side)
    {buf : Bytes} (hbuf : buf ∈ (d k.other).sent) (env : Env) :
    (∀ abort, (d k).buffers.handle buf (addr k.other) env = .error abort →
        abort = .panic "attempt to subtract with overflow") ∧
      ∀ error b' env', (d k).buffers.handle buf (addr k.other) env = .ok (.error error, b', env') →
        Benign error := by
  have hinv := fun k => invariant (fun h hs hmove => Transfer.Faithful.move h hs hmove)
    Transfer.faithful_init hrun k
  by_cases hack : isAck buf = true
  · obtain ⟨hhonest, hfaithful⟩ := hinv k
    obtain ⟨id, payload, i, hmem, hi, rfl⟩ := hfaithful.acks buf (List.mem_filter.mpr ⟨hbuf, hack⟩)
    have hsmall : i < seqIndexBound := hi.trans (hhonest.small _ hmem)
    obtain ⟨hpanic, herror⟩ := handle_ack_benign (d k).buffers id hsmall (addr k.other) env
    exact ⟨fun abort h => absurd h (hpanic abort), herror⟩
  · obtain ⟨hhonest, -⟩ := hinv k.other
    obtain ⟨id, payload, hmem, rfl | ⟨i, hi, rfl⟩⟩ :=
      hhonest.network buf (List.mem_filter.mpr ⟨hbuf, by simpa using hack⟩)
    · have hhandle := (d k).buffers.handle_done (addr k.other) env id []
      rw [List.append_nil] at hhandle
      rw [hhandle]
      exact ⟨fun abort h => (by cases h), fun error b' env' h => (by cases h)⟩
    · obtain ⟨S, hS⟩ := hhonest.knows id payload hmem
      simp only [half, Side.other_other] at hS
      exact handle_chunk_benign hS (hhonest.small _ hmem) hi (addr k.other) env

/-- The ack of a packet that is done comes once more. -/
theorem handle_benign_both :
    ∃ d, (system fun _ => 1).GuardedRun Genuine (init fun _ => ⟨8, by decide⟩) d ∧
      ∀ error b' env', (d .left).buffers.handle (ackDatagram (.replicate 7) 0) 1 (.accepting 4) =
        .ok (.error error, b', env') → Benign error := by
  obtain ⟨d, hrun, hd⟩ := Lts.exists_guardedRun (system fun _ => 1) Genuine
    (fun d e => decide (Genuine d e)) (init fun _ => ⟨8, by decide⟩) bothSend
    (fun d => ackDatagram (.replicate 7) 0 ∈ (d .right).sent)
    (fun _ _ _ => of_decide_eq_true) (by decide +kernel)
  exact ⟨d, hrun, (handle_benign hrun .left (of_decide_eq_true hd) (.accepting 4)).2⟩

end Duplex

end Ultinet
