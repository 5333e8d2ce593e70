import Ultinet.Lib.GuardedRun
import Ultinet.Packet.Reassembly

/-!
# Transfers over an unreliable network

One side sends packets to the other.  Everything either side ever sent stays in the network, and any
of it may arrive at any time and any number of times: datagrams get lost, duplicated and reordered.

`reports` are the packets that the receiver reassembled, with their ids, and `log` the packets that
the sender was asked to send, with their serialized payloads.  Both only grow.

The invariant `Honest` says what the sender's side of such a run looks like, whatever acks reach it.
-/

namespace Ultinet

/-! ## The system -/

/-- A sender, a receiver and the network between them. -/
structure Transfer where
  sender : SendPacketBuffer
  receiver : ReceivePacketBuffer
  log : List (PacketId × Bytes)
  toReceiver : List Bytes
  toSender : List Bytes
  reports : List (PacketId × Bytes)

/-- What can happen next. -/
inductive TransferEvent
  /-- The sender sends a packet. -/
  | send (threshold : ℕ) (value : List Bytes) (env : Env)
  /-- The sender sends pending parts. -/
  | sendPending (resendDelay : ℕ) (env : Env)
  /-- The sender forgets packets that time out. -/
  | timeoutPackets (maxMissedAcks : ℕ)
  /-- A datagram arrives at the sender. -/
  | atSender (buf : Bytes)
  /-- A datagram arrives at the receiver. -/
  | atReceiver (buf : Bytes) (env : Env)

/-- The id in a datagram. -/
def datagramId (buf : Bytes) : Option PacketId :=
  (slice buf packetKindSize (packetKindSize + packetIdSize)).bind Uuid.fromSlice

/-- The packet that the receiver reports after handling a datagram. -/
def reportOf (buf : Bytes) : Except HandlePacketError ReceivedPacketHandling →
    List (PacketId × Bytes)
  | .ok (.ack (.reassembled payload)) => (datagramId buf).toList.map fun id => (id, payload)
  | _ => []

namespace Transfer

/-- The beginning: nothing was sent. -/
def init (batchSize : NonZeroBatchSize) : Transfer where
  sender := .new batchSize
  receiver := .new
  log := []
  toReceiver := []
  toSender := []
  reports := []

section Step

variable (senderAddr receiverAddr : SocketAddr)

/-- One step; there is none if the code panics. -/
def step (s : Transfer) : TransferEvent → Option Transfer
  | .send threshold value env =>
      match s.sender.send value threshold receiverAddr env.start with
      | .error _ => none
      | .ok (_, sender, env') => some
          { s with
            sender
            log := s.log ++ [(env.uuid 0, value.flatten)]
            toReceiver := s.toReceiver ++ env'.sent.map Prod.snd }
  | .sendPending resendDelay env =>
      let (_, sender, env) := s.sender.sendPending resendDelay receiverAddr env.start
      some { s with sender, toReceiver := s.toReceiver ++ env.sent.map Prod.snd }
  | .timeoutPackets maxMissedAcks => some { s with sender := s.sender.timeoutPackets maxMissedAcks }
  | .atSender buf =>
      match s.sender.handle buf with
      | .error _ => none
      | .ok handled => some { s with sender := handled.2 }
  | .atReceiver buf env =>
      match s.receiver.handle buf senderAddr env.start with
      | .error _ => none
      | .ok (result, receiver, env) => some
          { s with
            receiver
            toSender := s.toSender ++ env.sent.map Prod.snd
            reports := s.reports ++ reportOf buf result }

/-- The state with other packets being sent, and other datagrams on their way to the receiver. -/
def onSender (s : Transfer) (packets : SortedMap PacketId PacketOut) (toReceiver : List Bytes) :
    Transfer :=
  { s with sender := { s.sender with packets }, toReceiver }

/-- The transition system of transfers between two addresses. -/
def system : Lts Transfer TransferEvent where
  step := step senderAddr receiverAddr

end Step

/-- The sender is honest and the network does not make up what it delivers to the receiver: ids are
fresh, packets take fewer than `2 ^ 32` parts, and what arrives at the receiver was sent to it. -/
def Genuine (s : Transfer) : TransferEvent → Prop
  | .send _ value env =>
      env.uuid 0 ∉ s.log.map Prod.fst ∧ chunkCount value.flatten < seqIndexBound
  | .atReceiver buf _ => buf ∈ s.toReceiver
  | _ => True

instance (s : Transfer) : (e : TransferEvent) → Decidable (Genuine s e)
  | .send _ _ _ => inferInstanceAs (Decidable (_ ∧ _))
  | .atReceiver buf _ => inferInstanceAs (Decidable (buf ∈ s.toReceiver))
  | .sendPending _ _ => inferInstanceAs (Decidable True)
  | .timeoutPackets _ => inferInstanceAs (Decidable True)
  | .atSender _ => inferInstanceAs (Decidable True)

/-! ## What datagrams tell -/

section Datagrams

variable {id id' : PacketId} {payload payload' : Bytes} {i j : ℕ}

@[simp] theorem datagramId_partDatagram (last : Bool) (seqIndex : ℕ) :
    datagramId (partDatagram last id seqIndex payload) = some id := by
  have h := slice_id (if last then PacketKind.lastPart else PacketKind.part).toByte id
    (SeqIndex.toLeBytes seqIndex ++ payload)
  simpa [datagramId, partDatagram, partHeader] using h

@[simp] theorem datagramId_chunkDatagram : datagramId (chunkDatagram id payload i) = some id := by
  rw [chunkDatagram, datagramId_partDatagram]

@[simp] theorem datagramId_doneDatagram : datagramId (doneDatagram id) = some id := by
  have h := slice_id PacketKind.done.toByte id []
  rw [List.append_nil] at h
  rw [doneDatagram_eq]
  exact h

@[simp] theorem datagramId_ackDatagram : datagramId (ackDatagram id i) = some id := by
  rw [ackDatagram_eq]
  exact slice_id PacketKind.ack.toByte id (SeqIndex.toLeBytes i)

theorem chunkDatagram_ne_doneDatagram : chunkDatagram id payload i ≠ doneDatagram id' := by
  intro h
  have hhead := congrArg List.head? h
  rw [doneDatagram_eq] at hhead
  simp only [chunkDatagram, partDatagram, partHeader, List.cons_append, List.head?_cons,
    Option.some.injEq] at hhead
  split_ifs at hhead <;> cases hhead

theorem doneDatagram_injective (h : doneDatagram id = doneDatagram id') : id = id' := by
  have := congrArg datagramId h
  simpa using this

theorem ackDatagram_injective (hi : i < seqIndexBound) (hj : j < seqIndexBound)
    (h : ackDatagram id i = ackDatagram id' j) : id = id' ∧ i = j := by
  have hid := congrArg datagramId h
  simp only [datagramId_ackDatagram, Option.some.injEq] at hid
  subst hid
  rw [ackDatagram_eq, ackDatagram_eq, List.append_cancel_left_eq] at h
  have hindex := congrArg SeqIndex.fromLeBytes h
  rw [SeqIndex.fromLeBytes_toLeBytes hi, SeqIndex.fromLeBytes_toLeBytes hj] at hindex
  exact ⟨rfl, Option.some.inj hindex⟩

end Datagrams

/-! ## What a step can do -/

open PacketOut (Sending FirstBatchSent)

variable {senderAddr receiverAddr : SocketAddr} {s t : Transfer}

/-- What sending a packet can do: some of its parts are sent, and unless a send fails the packet is
kept, without any part acked. -/
theorem step_send {threshold : ℕ} {value : List Bytes} {env : Env}
    (hsmall : chunkCount value.flatten < seqIndexBound)
    (hstep : step senderAddr receiverAddr s (.send threshold value env) = some t) :
    ∃ packets bufs,
      t = { s with
            sender := { s.sender with packets }
            log := s.log ++ [(env.uuid 0, value.flatten)]
            toReceiver := s.toReceiver ++ bufs } ∧
      (∀ buf ∈ bufs, ∃ i < chunkCount value.flatten,
        buf = chunkDatagram (env.uuid 0) value.flatten i) ∧
      ((packets = s.sender.packets ∧ ¬env.NoError) ∨
        ∃ packet, packets = s.sender.packets.insert (env.uuid 0) packet ∧
          Sending (env.uuid 0) value.flatten (fun _ => False) packet ∧
          (FirstBatchSent (env.uuid 0) value.flatten s.sender.batchSize.val receiverAddr env.start →
            packet.lastSend ≠ none)) := by
  have hserialize := @serializePacket_eq (env.uuid 0) threshold value hsmall
  set packet := if chunkCount value.flatten ≤ threshold then
    SerializedPacket.vec (chunkBuffers (env.uuid 0) value.flatten)
    else .channel (chunkBuffers (env.uuid 0) value.flatten) with hpacket
  have hvec : packet = .vec (chunkBuffers (env.uuid 0) value.flatten) ∨
      packet = .channel (chunkBuffers (env.uuid 0) value.flatten) := by
    rw [hpacket]
    split_ifs <;> simp
  obtain ⟨result, attempts, bufs, hsend, hbufs, hres⟩ := PacketOut.send_spec hvec receiverAddr
    s.sender.batchSize env.start.newUuid.2
  have hsender : s.sender.send value threshold receiverAddr env.start =
      match result with
      | .error error => .ok (.error error, s.sender,
          env.start.newUuid.2.record attempts (bufs.map (Prod.mk receiverAddr)))
      | .ok packet => .ok (.ok (env.uuid 0),
          { s.sender with packets := s.sender.packets.insert (env.uuid 0) packet },
          env.start.newUuid.2.record attempts (bufs.map (Prod.mk receiverAddr))) := by
    rw [SendPacketBuffer.send]
    simp only [Env.newUuid, Env.start_drawn, Env.start_uuid] at hsend ⊢
    rw [hserialize]
    simp only [bind, Except.bind, hsend]
    cases result <;> rfl
  rcases hres with ⟨error, rfl, hfail⟩ | ⟨packet', rfl, hsending⟩
  · refine ⟨s.sender.packets, bufs, ?_, hbufs, Or.inl ⟨rfl, hfail⟩⟩
    simp only [step, hsender, Option.some.injEq] at hstep
    rw [← hstep]
    simp [Env.newUuid, Function.comp_def]
  · refine ⟨s.sender.packets.insert (env.uuid 0) packet', bufs, ?_, hbufs,
      Or.inr ⟨packet', rfl, hsending, fun hfirst => ?_⟩⟩
    · simp only [step, hsender, Option.some.injEq] at hstep
      rw [← hstep]
      simp [Env.newUuid, Function.comp_def]
    · have hfirst' : FirstBatchSent (env.uuid 0) value.flatten s.sender.batchSize.val receiverAddr
          env.start.newUuid.2 := hfirst
      obtain ⟨packet'', hok, hlast⟩ := PacketOut.send_of_firstBatchSent hvec hfirst'
      rw [hok] at hsend
      simp only [Prod.mk.injEq, Except.ok.injEq] at hsend
      rw [← hsend.1, hlast]
      simp

/-- Visiting one packet: some of the parts that are not acked are sent and the packet stays, or it
is done and leaves with a `Done`. -/
theorem visit_spec {id : PacketId} {payload : Bytes} {acked : ℕ → Prop} {packet : PacketOut}
    (hp : Sending id payload acked packet) (resendDelay : ℕ) (addr : SocketAddr)
    (pass : SendPacketBuffer.Pass) :
    ∃ attempts, ∃ bufs : List Bytes,
      (SendPacketBuffer.visit resendDelay addr pass id packet).1.env =
        pass.env.record attempts (bufs.map (Prod.mk addr)) ∧
      ((∃ packet', (SendPacketBuffer.visit resendDelay addr pass id packet).2 = some packet' ∧
          Sending id payload acked packet' ∧ (packet'.lastSend = none ↔ packet.lastSend = none) ∧
          packet'.packetQueue.firstUnacked = packet.packetQueue.firstUnacked ∧
          ∀ buf ∈ bufs, ∃ i < chunkCount payload, ¬acked i ∧ buf = chunkDatagram id payload i) ∨
        ((SendPacketBuffer.visit resendDelay addr pass id packet).2 = none ∧
          bufs = [doneDatagram id] ∧
          (packet.lastSend = none ∨ ∀ i < chunkCount payload, acked i))) := by
  obtain ⟨result, packet', attempts, bufs, hsend, hsending, hlast, -, hcases⟩ :=
    PacketOut.sendPending_spec hp resendDelay addr pass.env
  have hfront := packet.sendPending_firstUnacked id resendDelay addr pass.env
  rw [hsend] at hfront
  cases hresult : pass.result with
  | error error =>
    refine ⟨[], [], ?_, Or.inl ⟨packet, ?_, hp, Iff.rfl, rfl, by simp⟩⟩
    · simp [SendPacketBuffer.visit, hresult]
    · simp [SendPacketBuffer.visit, hresult]
  | ok _ =>
    refine ⟨attempts, bufs, ?_, ?_⟩
    · simp only [SendPacketBuffer.visit, hresult, hsend]
      cases result <;> rfl
    · rcases hcases with ⟨rfl, rfl, hdone⟩ | ⟨hne, hparts⟩
      · refine Or.inr ⟨?_, rfl, hdone⟩
        simp only [SendPacketBuffer.visit, hresult, hsend]
        rfl
      · refine Or.inl ⟨packet', ?_, hsending, hlast, hfront, hparts⟩
        simp only [SendPacketBuffer.visit, hresult, hsend]
        cases result with
        | error error => rfl
        | ok done =>
          cases done with
          | true => exact absurd rfl hne
          | false => rfl

/-- **The rule for sending pending parts.**  A relation between the packets being sent and the
datagrams sent so far is preserved if it is preserved whenever one packet sends parts that are not
acked, and whenever one packet is dropped with a `Done`. -/
theorem sendPending_invariant {P : SortedMap PacketId PacketOut → List Bytes → Prop}
    (hvisit : ∀ m net id packet, P m net → m.get? id = some packet →
      ∃ payload acked, Sending id payload acked packet ∧
        (∀ packet' bufs, Sending id payload acked packet' →
          (packet'.lastSend = none ↔ packet.lastSend = none) →
          packet'.packetQueue.firstUnacked = packet.packetQueue.firstUnacked →
          (∀ buf ∈ bufs, ∃ i < chunkCount payload, ¬acked i ∧ buf = chunkDatagram id payload i) →
          P (m.update id (some packet')) (net ++ bufs)) ∧
        ((packet.lastSend = none ∨ ∀ i < chunkCount payload, acked i) →
          P (m.update id none) (net ++ [doneDatagram id])))
    (b : SendPacketBuffer) (resendDelay : ℕ) (addr : SocketAddr) (env : Env) (net : List Bytes)
    (hP : P b.packets (net ++ env.sent.map Prod.snd)) :
    P (b.sendPending resendDelay addr env).2.1.packets
      (net ++ (b.sendPending resendDelay addr env).2.2.sent.map Prod.snd) := by
  have hpass := SortedMap.retainState_invariant
    (f := SendPacketBuffer.visit resendDelay addr)
    (I := fun pass m => P m (net ++ pass.env.sent.map Prod.snd))
    (s := { batchSize := 0, count := 0, result := .ok (), env := env }) (m := b.packets) ?_ hP
  · exact hpass
  · intro pass m id packet hI hget
    obtain ⟨payload, acked, hsending, hstay, hdone⟩ := hvisit m _ id packet hI hget
    obtain ⟨attempts, bufs, henv, hcases⟩ := visit_spec hsending resendDelay addr pass
    have hsent : (SendPacketBuffer.visit resendDelay addr pass id packet).1.env.sent.map Prod.snd =
        pass.env.sent.map Prod.snd ++ bufs := by
      rw [henv]
      simp [Function.comp_def]
    rw [hsent, ← List.append_assoc]
    rcases hcases with ⟨packet', hsome, hsending', hlast, hfront, hparts⟩ | ⟨hnone, rfl, hall⟩
    · rw [hsome]
      exact hstay packet' bufs hsending' hlast hfront hparts
    · rw [hnone]
      exact hdone hall

/-- What handling a part can do, given the parts of the packet received so far: the part is added,
maybe acked, and the packet is reported if the part was the one that was missing. -/
theorem step_part {id : PacketId} {payload : Bytes} {S : Finset ℕ} {i : ℕ} {env : Env}
    (hknows : Knows payload S (s.receiver.packets.get? id))
    (hn : chunkCount payload < seqIndexBound) (hi : i < chunkCount payload)
    (hstep : step senderAddr receiverAddr s (.atReceiver (chunkDatagram id payload i) env) =
      some t) :
    ∃ receiver acks reports,
      t = { s with receiver, toSender := s.toSender ++ acks, reports := s.reports ++ reports } ∧
      Knows payload (insert i S) (receiver.packets.get? id) ∧
      (∀ id' ≠ id, receiver.packets.get? id' = s.receiver.packets.get? id') ∧
      (∀ buf ∈ acks, buf = ackDatagram id i) ∧
      ((reports = [] ∧ (i ∉ S → insert i S = Finset.range (chunkCount payload) → ¬env.NoError)) ∨
        (reports = [(id, payload)] ∧ i ∉ S ∧ insert i S = Finset.range (chunkCount payload))) := by
  rcases ReceivePacketBuffer.handle_chunk hknows hn hi senderAddr env.start with
    ⟨-, hpanic⟩ | ⟨receiver, hhandle, hknows', hframe⟩
  · simp [step, hpanic] at hstep
  obtain ⟨sent, henv, hsent, hack⟩ := ack_spec id i senderAddr env.start
  rw [henv] at hhandle
  simp only [step, hhandle, Option.some.injEq] at hstep
  refine ⟨receiver, sent.map Prod.snd,
    reportOf (chunkDatagram id payload i)
      (((Ultinet.ack id i senderAddr env.start).1.mapError .receive).map
        fun _ => .ack (partOutcome payload S i)),
    hstep.symm.trans ?_, hknows', hframe, ?_, ?_⟩
  · simp only [Env.record_sent, Env.start_sent, List.nil_append]
  · intro buf hbuf
    obtain ⟨datagram, hdatagram, rfl⟩ := List.mem_map.mp hbuf
    rw [hsent datagram hdatagram]
  · rcases hack with ⟨error, herror, hfail⟩ | hok
    · rw [herror]
      exact Or.inl ⟨rfl, fun _ _ => hfail⟩
    · rw [hok]
      by_cases hS : i ∈ S
      · exact Or.inl ⟨by simp [reportOf, Except.map, Except.mapError, partOutcome, hS],
          fun hnot => absurd hS hnot⟩
      · by_cases hfull : insert i S = Finset.range (chunkCount payload)
        · exact Or.inr ⟨by simp [reportOf, Except.map, Except.mapError, partOutcome, hS, hfull],
            hS, hfull⟩
        · exact Or.inl ⟨by simp [reportOf, Except.map, Except.mapError, partOutcome, hS, hfull],
            fun _ h => absurd h hfull⟩

/-- What handling a `Done` does: the receiver forgets the packet. -/
theorem step_done {id : PacketId} {env : Env}
    (hstep : step senderAddr receiverAddr s (.atReceiver (doneDatagram id) env) = some t) :
    t = { s with receiver := { s.receiver with packets := s.receiver.packets.erase id } } := by
  simp only [step, ReceivePacketBuffer.handle_done, Option.some.injEq] at hstep
  rw [← hstep]
  simp [reportOf]

/-! ## Honest senders -/

/-- The datagram belongs to a packet that was sent: it is one of its parts, or its `Done`. -/
def BelongsTo (log : List (PacketId × Bytes)) (buf : Bytes) : Prop :=
  ∃ id payload, (id, payload) ∈ log ∧
    (buf = doneDatagram id ∨ ∃ i < chunkCount payload, buf = chunkDatagram id payload i)

theorem BelongsTo.mono {log log' : List (PacketId × Bytes)} {buf : Bytes} (h : BelongsTo log buf)
    (hsub : log ⊆ log') : BelongsTo log' buf := by
  obtain ⟨id, payload, hmem, hbuf⟩ := h
  exact ⟨id, payload, hsub hmem, hbuf⟩

/-- The sender keeps packets that were sent, and sends what belongs to them; so what the receiver
knows of each packet is some of its parts. -/
structure Honest (s : Transfer) : Prop where
  network : ∀ buf ∈ s.toReceiver, BelongsTo s.log buf
  small : ∀ entry ∈ s.log, chunkCount entry.2 < seqIndexBound
  nodup : (s.log.map Prod.fst).Nodup
  sending : ∀ id packet, s.sender.packets.get? id = some packet →
    ∃ payload acked, (id, payload) ∈ s.log ∧ Sending id payload acked packet
  knows : ∀ id payload, (id, payload) ∈ s.log →
    ∃ S, Knows payload S (s.receiver.packets.get? id)
  unknown : ∀ id, id ∉ s.log.map Prod.fst → s.receiver.packets.get? id = none

theorem honest_init (batchSize : NonZeroBatchSize) : Honest (init batchSize) where
  network := by simp [init]
  small := by simp [init]
  nodup := by simp [init]
  sending := by simp [init, SendPacketBuffer.new]
  knows := by simp [init]
  unknown := by simp [init, ReceivePacketBuffer.new]

/-- An id names one packet. -/
theorem Honest.payload_unique (h : Honest s) {id : PacketId} {payload payload' : Bytes}
    (hmem : (id, payload) ∈ s.log) (hmem' : (id, payload') ∈ s.log) : payload = payload' := by
  have := List.inj_on_of_nodup_map h.nodup hmem hmem' rfl
  exact congrArg Prod.snd this

/-- The sender stays honest, whatever happens. -/
theorem Honest.step {e : TransferEvent} (h : Honest s) (hgenuine : Genuine s e)
    (hstep : (system senderAddr receiverAddr).step s e = some t) : Honest t := by
  change Transfer.step senderAddr receiverAddr s e = some t at hstep
  cases e with
  | send threshold value env =>
    obtain ⟨hfresh, hsmall⟩ := hgenuine
    obtain ⟨packets, bufs, rfl, hbufs, hpackets⟩ := step_send hsmall hstep
    have hnew : (env.uuid 0, value.flatten) ∈ s.log ++ [(env.uuid 0, value.flatten)] :=
      List.mem_append_right _ List.mem_cons_self
    refine ⟨fun buf hbuf => ?_, fun entry hentry => ?_, ?_, fun id packet hget => ?_,
      fun id payload hmem => ?_, fun id hid => ?_⟩
    · rcases List.mem_append.mp hbuf with hold | hmem
      · exact (h.network buf hold).mono (List.subset_append_left _ _)
      · exact ⟨_, _, hnew, Or.inr (hbufs buf hmem)⟩
    · rcases List.mem_append.mp hentry with hold | hmem
      · exact h.small entry hold
      · rw [List.mem_singleton.mp hmem]
        exact hsmall
    · rw [List.map_append, List.nodup_append]
      refine ⟨h.nodup, by simp, fun a ha b hb heq => hfresh ?_⟩
      rw [List.map_singleton, List.mem_singleton] at hb
      rw [heq, hb] at ha
      exact ha
    · have hold : s.sender.packets.get? id = some packet →
          ∃ payload acked, (id, payload) ∈ s.log ++ [(env.uuid 0, value.flatten)] ∧
            Sending id payload acked packet := by
        intro hget
        obtain ⟨payload, acked, hmem, hsending⟩ := h.sending id packet hget
        exact ⟨payload, acked, List.mem_append_left _ hmem, hsending⟩
      rcases hpackets with ⟨rfl, -⟩ | ⟨packet', rfl, hsending, -⟩
      · exact hold hget
      · rw [SortedMap.get?_insert] at hget
        split_ifs at hget with hid
        · subst hid
          cases hget
          exact ⟨_, _, hnew, hsending⟩
        · exact hold hget
    · rcases List.mem_append.mp hmem with hold | hnew
      · exact h.knows id payload hold
      · cases List.mem_singleton.mp hnew
        exact ⟨∅, by rw [h.unknown _ hfresh]; rfl⟩
    · exact h.unknown id fun hold => hid (by simp [hold])
  | sendPending resendDelay env =>
    have hpass := sendPending_invariant
      (P := fun m net => Honest (s.onSender m net))
      (fun m net id packet hP hget => by
        obtain ⟨payload, acked, hmem, hsending⟩ := hP.sending id packet hget
        refine ⟨payload, acked, hsending, fun packet' bufs hsending' _ _ hbufs => ?_, fun _ => ?_⟩
        · refine ⟨fun buf hbuf => ?_, h.small, h.nodup, fun id' packet'' hget' => ?_, h.knows,
            h.unknown⟩
          · rcases List.mem_append.mp hbuf with hold | hnew
            · exact hP.network buf hold
            · obtain ⟨i, hi, -, rfl⟩ := hbufs buf hnew
              exact ⟨id, payload, hmem, Or.inr ⟨i, hi, rfl⟩⟩
          · change (m.update id (some packet')).get? id' = some packet'' at hget'
            rw [SortedMap.get?_update] at hget'
            split_ifs at hget' with hid
            · subst hid
              cases hget'
              exact ⟨payload, acked, hmem, hsending'⟩
            · exact hP.sending id' packet'' hget'
        · refine ⟨fun buf hbuf => ?_, h.small, h.nodup, fun id' packet'' hget' => ?_, h.knows,
            h.unknown⟩
          · rcases List.mem_append.mp hbuf with hold | hnew
            · exact hP.network buf hold
            · exact ⟨id, payload, hmem, Or.inl (List.mem_singleton.mp hnew)⟩
          · change (m.update id none).get? id' = some packet'' at hget'
            rw [SortedMap.get?_update] at hget'
            split_ifs at hget' with hid
            exact hP.sending id' packet'' hget')
      s.sender resendDelay receiverAddr env.start s.toReceiver
      (by simpa using (⟨h.network, h.small, h.nodup, h.sending, h.knows, h.unknown⟩ :
        Honest (s.onSender s.sender.packets s.toReceiver)))
    simp only [Transfer.step, Option.some.injEq] at hstep
    rw [← hstep]
    exact ⟨hpass.network, h.small, h.nodup, hpass.sending, h.knows, h.unknown⟩
  | timeoutPackets maxMissedAcks =>
    simp only [Transfer.step, Option.some.injEq] at hstep
    rw [← hstep]
    refine ⟨h.network, h.small, h.nodup, fun id packet hget => ?_, h.knows, h.unknown⟩
    rw [SendPacketBuffer.timeoutPackets, SortedMap.get?_retain, Option.filter_eq_some_iff] at hget
    exact h.sending id packet hget.1
  | atSender buf =>
    simp only [Transfer.step, SendPacketBuffer.handle_eq, Option.some.injEq] at hstep
    rw [← hstep]
    refine ⟨h.network, h.small, h.nodup, fun id packet hget => ?_, h.knows, h.unknown⟩
    rcases s.sender.handle_cases buf with hsame | ⟨id', seqIndex, hack⟩
    · rw [hsame] at hget
      exact h.sending id packet hget
    · rw [hack, SendPacketBuffer.ack] at hget
      cases hget' : s.sender.packets.get? id' with
      | none =>
        rw [hget'] at hget
        exact h.sending id packet hget
      | some packet' =>
        obtain ⟨payload, acked, hmem, hsending⟩ := h.sending id' packet' hget'
        obtain ⟨result, packet'', hresult, -, hcases⟩ := PacketOut.ack_spec hsending seqIndex
        have hinsert : (s.sender.packets.insert id' packet'').get? id = some packet := by
          rw [hget'] at hget
          simp only [hresult] at hget
          cases result <;> exact hget
        rw [SortedMap.get?_insert] at hinsert
        split_ifs at hinsert with hid
        · subst hid
          cases hinsert
          rcases hcases with ⟨hsending', -⟩ | ⟨b, -, -, -, hsending'⟩
          · exact ⟨payload, _, hmem, hsending'⟩
          · exact ⟨payload, _, hmem, hsending'⟩
        · exact h.sending id packet hinsert
  | atReceiver buf env =>
    obtain ⟨id, payload, hmem, rfl | ⟨i, hi, rfl⟩⟩ := h.network buf hgenuine
    · rw [step_done hstep]
      refine ⟨h.network, h.small, h.nodup, h.sending, fun id' payload' hmem' => ?_,
        fun id' hid' => ?_⟩
      · by_cases hid : id' = id
        · exact ⟨∅, by simp [SortedMap.get?_erase, hid, Knows]⟩
        · simpa [SortedMap.get?_erase, hid] using h.knows id' payload' hmem'
      · simp [SortedMap.get?_erase, h.unknown id' hid']
    · obtain ⟨S, hS⟩ := h.knows id payload hmem
      obtain ⟨receiver, acks, reports, rfl, hknows, hframe, -, -⟩ :=
        step_part hS (h.small _ hmem) hi hstep
      refine ⟨h.network, h.small, h.nodup, h.sending, fun id' payload' hmem' => ?_,
        fun id' hid' => ?_⟩
      · by_cases hid : id' = id
        · subst hid
          rw [h.payload_unique hmem' hmem]
          exact ⟨_, hknows⟩
        · simpa [hframe id' hid] using h.knows id' payload' hmem'
      · have hne : id' ≠ id := by
          rintro rfl
          exact hid' (List.mem_map_of_mem hmem)
        exact (hframe id' hne).trans (h.unknown id' hid')

end Transfer

end Ultinet
