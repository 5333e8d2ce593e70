import Ultinet.Packet.AnyParts
import Ultinet.Packet.Transfer

/-!
# When a discarded packet was delivered

A sender drops a packet once it takes it for acked as a whole.  Two things make it take a packet for
acked that was not delivered:

- The socket would block within the first batch.  Then the packet has never been sent, which
  `PacketOut` also uses to mark a canceled packet, and the next `sendPending` sends a `Done`.
- An ack is handled after parts were dropped from the front of the queue.  The position it marks
  counts from the first part that is left, so it marks a later part than the one it names, which may
  not have been received.

`Careful` excludes just these two.  The invariant that carries `no_silent_loss` is `Accounted`: a
packet that the sender keeps has no part marked, and no ack under way, that the receiver does not
have (`Delivering`); a packet that the sender does not keep was reported (`Settled`).
-/

namespace Ultinet

namespace Transfer

open PacketOut (Sending FirstBatchSent)

/-! ## The setting -/

/-- Sockets may block but do not fail, nothing times out, and what arrives was sent. -/
def Admissible (s : Transfer) (e : TransferEvent) : Prop :=
  Genuine s e ∧
    match e with
    | .send _ _ env => env.NoError
    | .sendPending _ env => env.NoError
    | .timeoutPackets _ => False
    | .atSender buf => buf ∈ s.toSender
    | .atReceiver _ env => env.NoError

/-- The receiver has received this part of a packet. -/
def Received (s : Transfer) (id : PacketId) (i : ℕ) : Prop :=
  ∃ entry ∈ s.receiver.packets.get? id,
    (entry.packet = none → i = 0) ∧ ∀ packet ∈ entry.packet, packet.Has i

instance (s : Transfer) (id : PacketId) (i : ℕ) : Decidable (s.Received id i) :=
  inferInstanceAs (Decidable (∃ entry ∈ s.receiver.packets.get? id,
    (entry.packet = none → i = 0) ∧
      ∀ packet ∈ entry.packet, BitWindow.Mem packet.firstPending packet.receivedChunks i))

/-- The socket accepts the first batch of each packet, and no ack marks a part that was not received:
nothing was dropped from the front of the queue yet, so that it marks the part it names, or what it
would mark is marked, or was received. -/
def Careful (receiverAddr : SocketAddr) (s : Transfer) : TransferEvent → Prop
  | .send _ value env =>
      FirstBatchSent (env.uuid 0) value.flatten s.sender.batchSize.val receiverAddr env.start
  | .atSender buf => ∀ id seqIndex packet, seqIndex < seqIndexBound →
      buf = ackDatagram id seqIndex → s.sender.packets.get? id = some packet →
        packet.packetQueue.firstUnacked = 0 ∨
          (∀ b, packet.packetQueue.packets[seqIndex]? = some b → b.acked = true) ∨
          s.Received id (packet.packetQueue.firstUnacked + seqIndex)
  | _ => True

/-! ## The invariant -/

/-- The sender keeps the packet; what it takes for acked, and what is acked in the network, was
received. -/
structure Delivering (s : Transfer) (id : PacketId) (payload : Bytes) (S : Finset ℕ)
    (packet : PacketOut) (acked : ℕ → Prop) : Prop where
  knows : Knows payload S (s.receiver.packets.get? id)
  reported : S = Finset.range (chunkCount payload) → (id, payload) ∈ s.reports
  not_done : doneDatagram id ∉ s.toReceiver
  acks : ∀ i < seqIndexBound, ackDatagram id i ∈ s.toSender → i ∈ S
  kept : s.sender.packets.get? id = some packet
  started : packet.lastSend ≠ none
  sending : Sending id payload acked packet
  received : ∀ i, acked i → i ∈ S

/-- A part that the receiver has received is one of those it knows. -/
theorem Delivering.mem_of_received {s : Transfer} {id : PacketId} {payload : Bytes} {S : Finset ℕ}
    {packet : PacketOut} {acked : ℕ → Prop} {i : ℕ}
    (h : Delivering s id payload S packet acked) (hreceived : s.Received id i) : i ∈ S := by
  obtain ⟨entry, hentry, hsingle, hseveral⟩ := hreceived
  have hknows := h.knows
  rw [Option.mem_def.mp hentry] at hknows
  unfold Knows at hknows
  dsimp only at hknows
  cases hpacket : entry.packet with
  | none =>
    rw [hpacket] at hknows
    rw [hknows.2, hsingle hpacket]
    exact Finset.mem_singleton_self 0
  | some reassembled =>
    rw [hpacket] at hknows
    exact (hknows.2.received i).mp (hseveral reassembled hpacket)

/-- The sender does not keep the packet, and it was reported. -/
structure Settled (s : Transfer) (id : PacketId) (payload : Bytes) : Prop where
  dropped : s.sender.packets.get? id = none
  reported : (id, payload) ∈ s.reports

/-- Every packet that was sent is being delivered, or settled. -/
structure Accounted (s : Transfer) : Prop where
  acks : ∀ buf ∈ s.toSender, ∃ id i, id ∈ s.log.map Prod.fst ∧ i < seqIndexBound ∧
    buf = ackDatagram id i
  logged : ∀ id packet, s.sender.packets.get? id = some packet → id ∈ s.log.map Prod.fst
  each : ∀ id payload, (id, payload) ∈ s.log →
    Settled s id payload ∨ ∃ S packet acked, Delivering s id payload S packet acked

theorem accounted_init (batchSize : NonZeroBatchSize) : Accounted (init batchSize) where
  acks := by simp [init]
  logged := by simp [init, SendPacketBuffer.new]
  each := by simp [init]

variable {senderAddr receiverAddr : SocketAddr} {s t : Transfer}

/-- What the sender keeps is being delivered. -/
theorem Accounted.delivering (h : Accounted s) {id : PacketId} {packet : PacketOut}
    (hget : s.sender.packets.get? id = some packet) :
    ∃ payload S acked, (id, payload) ∈ s.log ∧ Delivering s id payload S packet acked := by
  obtain ⟨⟨id', payload⟩, hmem, rfl⟩ := List.mem_map.mp (h.logged id packet hget)
  rcases h.each id' payload hmem with hsettled | ⟨S, packet', acked, hdel⟩
  · rw [hsettled.dropped] at hget
    cases hget
  · have hsame : packet' = packet := by
      have := hdel.kept
      rw [hget] at this
      exact (Option.some.inj this).symm
    subst hsame
    exact ⟨payload, S, acked, hmem, hdel⟩

/-! ## Preservation -/

/-- Another packet than the one that is updated. -/
theorem Accounted.other {s t : Transfer} {id id' : PacketId} {payload' : Bytes} (hne : id' ≠ id)
    (hreceiver : t.receiver.packets.get? id' = s.receiver.packets.get? id')
    (hsender : t.sender.packets.get? id' = s.sender.packets.get? id')
    (hreports : s.reports ⊆ t.reports)
    (hnet : ∀ buf ∈ t.toReceiver, buf ∈ s.toReceiver ∨ datagramId buf = some id)
    (hacks : ∀ buf ∈ t.toSender, buf ∈ s.toSender ∨ datagramId buf = some id)
    (h : Settled s id' payload' ∨ ∃ S packet acked, Delivering s id' payload' S packet acked) :
    Settled t id' payload' ∨ ∃ S packet acked, Delivering t id' payload' S packet acked := by
  rcases h with hsettled | ⟨S, packet, acked, hdel⟩
  · exact Or.inl ⟨hsender.trans hsettled.dropped, hreports hsettled.reported⟩
  · refine Or.inr ⟨S, packet, acked, ?_, fun hfull => hreports (hdel.reported hfull), ?_, ?_,
      hsender.trans hdel.kept, hdel.started, hdel.sending, hdel.received⟩
    · rw [hreceiver]
      exact hdel.knows
    · intro hdone
      rcases hnet _ hdone with hold | hid
      · exact hdel.not_done hold
      · exact hne (by simpa using hid)
    · intro i hi hack
      rcases hacks _ hack with hold | hid
      · exact hdel.acks i hi hold
      · exact absurd (by simpa using hid) hne

theorem accounted_send {threshold : ℕ} {value : List Bytes} {env : Env} (honest : Honest s)
    (h : Accounted s) (hadmissible : Admissible s (.send threshold value env))
    (hcareful : Careful receiverAddr s (.send threshold value env))
    (hstep : step senderAddr receiverAddr s (.send threshold value env) = some t) :
    Accounted t := by
  obtain ⟨⟨hfresh, hsmall⟩, hno⟩ := hadmissible
  obtain ⟨packets, bufs, rfl, hbufs, hpackets⟩ := step_send hsmall hstep
  obtain ⟨packet, rfl, hsending, hstarted⟩ := hpackets.resolve_left fun hfail => hfail.2 hno
  set id := env.uuid 0 with hid
  set payload := value.flatten with hpayload
  refine ⟨fun buf hbuf => ?_, fun id' packet' hget => ?_, fun id' payload' hmem => ?_⟩
  · obtain ⟨id', i, hid', hi, rfl⟩ := h.acks buf hbuf
    exact ⟨id', i, by simp [hid'], hi, rfl⟩
  · simp only [SortedMap.get?_insert] at hget
    split_ifs at hget with hsame
    · simp [hsame]
    · simp [h.logged id' packet' hget]
  · rcases List.mem_append.mp hmem with hold | hnew
    · have hne : id' ≠ id := by
        rintro rfl
        exact hfresh (List.mem_map_of_mem hold)
      refine (h.each id' payload' hold).imp (fun hsettled => ⟨?_, hsettled.reported⟩) ?_
      · exact (SortedMap.get?_insert_of_ne hne).trans hsettled.dropped
      · rintro ⟨S, packet', acked, hdel⟩
        refine ⟨S, packet', acked, hdel.knows, hdel.reported, fun hdone => ?_, hdel.acks,
          (SortedMap.get?_insert_of_ne hne).trans hdel.kept, hdel.started, hdel.sending,
          hdel.received⟩
        rcases List.mem_append.mp hdone with hold' | hpart
        · exact hdel.not_done hold'
        · obtain ⟨i, -, heq⟩ := hbufs _ hpart
          exact chunkDatagram_ne_doneDatagram heq.symm
    · cases List.mem_singleton.mp hnew
      refine Or.inr ⟨∅, packet, fun _ => False, ?_, fun hfull => ?_, fun hdone => ?_,
        fun i hi hack => ?_, SortedMap.get?_insert_self _ _ _, hstarted hcareful, hsending,
        fun _ hfalse => hfalse.elim⟩
      · change Knows payload ∅ (s.receiver.packets.get? id)
        rw [honest.unknown _ hfresh]
        rfl
      · have hpos := chunkCount_pos payload
        have hzero : 0 ∈ (∅ : Finset ℕ) := hfull ▸ Finset.mem_range.mpr hpos
        simp at hzero
      · rcases List.mem_append.mp hdone with hold | hpart
        · obtain ⟨id', payload', hmem', hbuf⟩ := honest.network _ hold
          have hsame : id' = id := by
            rcases hbuf with hdone' | ⟨i, -, hchunk⟩
            · exact (doneDatagram_injective hdone').symm
            · exact absurd hchunk.symm chunkDatagram_ne_doneDatagram
          exact hfresh (hsame ▸ List.mem_map_of_mem hmem')
        · obtain ⟨i, -, heq⟩ := hbufs _ hpart
          exact chunkDatagram_ne_doneDatagram heq.symm
      · obtain ⟨id', j, hid', hj, heq⟩ := h.acks _ hack
        exact absurd ((ackDatagram_injective hi hj heq).1 ▸ hid') hfresh

section SendPending

variable {m : SortedMap PacketId PacketOut} {net : List Bytes} {id : PacketId} {payload : Bytes}
  {S : Finset ℕ} {packet : PacketOut} {acked : ℕ → Prop}

/-- A packet stays, and only parts of it were sent. -/
theorem Accounted.resend (honest : Honest s) (h : Accounted (s.onSender m net))
    (hmem : (id, payload) ∈ s.log)
    (hdel : Delivering (s.onSender m net) id payload S packet acked) {packet' : PacketOut}
    {bufs : List Bytes} (hsending : Sending id payload acked packet')
    (hlast : packet'.lastSend = none ↔ packet.lastSend = none)
    (hbufs : ∀ buf ∈ bufs, ∃ i, buf = chunkDatagram id payload i) :
    Accounted (s.onSender (m.update id (some packet')) (net ++ bufs)) := by
  refine ⟨h.acks, fun id' packet'' hget' => ?_, fun id' payload' hmem' => ?_⟩
  · by_cases hid : id' = id
    · subst hid
      exact List.mem_map_of_mem hmem
    · exact h.logged id' packet'' ((SortedMap.get?_update_of_ne hid).symm.trans hget')
  · by_cases hid : id' = id
    · subst hid
      cases honest.payload_unique hmem hmem'
      refine Or.inr ⟨S, packet', acked, hdel.knows, hdel.reported, fun hdone => ?_, hdel.acks,
        SortedMap.get?_update_self _ _ _, fun hnone => hdel.started (hlast.mp hnone), hsending,
        hdel.received⟩
      rcases List.mem_append.mp hdone with hold | hnew
      · exact hdel.not_done hold
      · obtain ⟨i, heq⟩ := hbufs _ hnew
        exact chunkDatagram_ne_doneDatagram heq.symm
    · refine Accounted.other (s := s.onSender m net) hid rfl (SortedMap.get?_update_of_ne hid)
        (List.Subset.refl _) (fun buf hbuf => ?_) (fun buf hbuf => Or.inl hbuf)
        (h.each id' payload' hmem')
      rcases List.mem_append.mp hbuf with hold | hnew
      · exact Or.inl hold
      · obtain ⟨i, rfl⟩ := hbufs buf hnew
        exact Or.inr datagramId_chunkDatagram

/-- A packet of which every part was acked is dropped with a `Done`: it was received as a whole. -/
theorem Accounted.finish (honest : Honest s) (h : Accounted (s.onSender m net))
    (hmem : (id, payload) ∈ s.log)
    (hdel : Delivering (s.onSender m net) id payload S packet acked)
    (hdone : packet.lastSend = none ∨ ∀ i < chunkCount payload, acked i) :
    Accounted (s.onSender (m.update id none) (net ++ [doneDatagram id])) := by
  have hall := hdone.resolve_left hdel.started
  have hfull : S = Finset.range (chunkCount payload) := by
    refine Finset.Subset.antisymm hdel.knows.subset fun i hi => ?_
    exact hdel.received i (hall i (Finset.mem_range.mp hi))
  refine ⟨h.acks, fun id' packet'' hget' => ?_, fun id' payload' hmem' => ?_⟩
  · by_cases hid : id' = id
    · subst hid
      exact List.mem_map_of_mem hmem
    · exact h.logged id' packet'' ((SortedMap.get?_update_of_ne hid).symm.trans hget')
  · by_cases hid : id' = id
    · subst hid
      cases honest.payload_unique hmem hmem'
      exact Or.inl ⟨SortedMap.get?_update_self _ _ _, hdel.reported hfull⟩
    · refine Accounted.other (s := s.onSender m net) hid rfl (SortedMap.get?_update_of_ne hid)
        (List.Subset.refl _) (fun buf hbuf => ?_) (fun buf hbuf => Or.inl hbuf)
        (h.each id' payload' hmem')
      rcases List.mem_append.mp hbuf with hold | hnew
      · exact Or.inl hold
      · rw [List.mem_singleton.mp hnew]
        exact Or.inr datagramId_doneDatagram

/-- The batch size does not matter. -/
theorem Accounted.resize (h : Accounted (s.onSender m net)) {sender : SendPacketBuffer}
    (hsender : sender.packets = m) : Accounted { s with sender, toReceiver := net } := by
  subst hsender
  refine ⟨h.acks, h.logged, fun id payload hmem => ?_⟩
  rcases h.each id payload hmem with hsettled | ⟨S, packet, acked, hdel⟩
  · exact Or.inl ⟨hsettled.dropped, hsettled.reported⟩
  · exact Or.inr ⟨S, packet, acked, hdel.knows, hdel.reported, hdel.not_done, hdel.acks, hdel.kept,
      hdel.started, hdel.sending, hdel.received⟩

end SendPending

theorem accounted_sendPending {resendDelay : ℕ} {env : Env} (honest : Honest s) (h : Accounted s)
    (hstep : step senderAddr receiverAddr s (.sendPending resendDelay env) = some t) :
    Accounted t := by
  have hpass := sendPending_invariant (P := fun m net => Accounted (s.onSender m net))
    (fun m net id packet hP hget => by
      obtain ⟨payload, S, acked, hmem, hdel⟩ := hP.delivering hget
      refine ⟨payload, acked, hdel.sending, fun packet' bufs hsending hlast _ hbufs => ?_, ?_⟩
      · refine hP.resend honest hmem hdel hsending hlast fun buf hbuf => ?_
        obtain ⟨i, -, -, rfl⟩ := hbufs buf hbuf
        exact ⟨i, rfl⟩
      · exact hP.finish honest hmem hdel)
    s.sender resendDelay receiverAddr env.start s.toReceiver
    (by simpa using (show Accounted (s.onSender s.sender.packets s.toReceiver) from h))
  simp only [Transfer.step, Option.some.injEq] at hstep
  rw [← hstep]
  exact hpass.resize rfl

theorem accounted_atSender {buf : Bytes} (honest : Honest s) (h : Accounted s)
    (hadmissible : Admissible s (.atSender buf)) (hcareful : Careful receiverAddr s (.atSender buf))
    (hstep : step senderAddr receiverAddr s (.atSender buf) = some t) : Accounted t := by
  obtain ⟨id, i, -, hi, rfl⟩ := h.acks buf hadmissible.2
  simp only [Transfer.step, SendPacketBuffer.handle_ack id s.sender hi, Option.some.injEq] at hstep
  cases hget : s.sender.packets.get? id with
  | none =>
    rw [← hstep]
    simpa only [SendPacketBuffer.ack, hget] using h
  | some packet =>
    obtain ⟨payload, S, acked, hmem, hdel⟩ := h.delivering hget
    obtain ⟨result, packet', hack, hlast, hcases⟩ := PacketOut.ack_spec hdel.sending i
    -- what is taken for acked afterwards was received
    obtain ⟨acked', hsending, hreceived⟩ : ∃ acked', Sending id payload acked' packet' ∧
        ∀ j, acked' j → j ∈ S := by
      rcases hcases with ⟨hsending, -⟩ | ⟨b, hb, hmark, -, hsending⟩
      · exact ⟨acked, hsending, hdel.received⟩
      · refine ⟨_, hsending, fun j hj => ?_⟩
        rcases hj with rfl | hj
        · rcases hcareful id i packet hi rfl hget with hzero | hmarked | hreceived
          · rw [hzero, Nat.zero_add]
            exact hdel.acks i hi hadmissible.2
          · rw [hmarked b hb] at hmark
            cases hmark
          · exact hdel.mem_of_received hreceived
        · exact hdel.received j hj
    have ht : t = { s with sender := { s.sender with packets := s.sender.packets.insert id packet' } } := by
      rw [← hstep]
      simp only [SendPacketBuffer.ack, hget, hack]
      cases result <;> rfl
    subst ht
    refine ⟨h.acks, fun id' packet'' hget' => ?_, fun id' payload' hmem' => ?_⟩
    · by_cases hid : id' = id
      · subst hid
        exact List.mem_map_of_mem hmem
      · exact h.logged id' packet'' ((SortedMap.get?_insert_of_ne hid).symm.trans hget')
    · by_cases hid : id' = id
      · subst hid
        cases honest.payload_unique hmem hmem'
        exact Or.inr ⟨S, packet', acked', hdel.knows, hdel.reported, hdel.not_done, hdel.acks,
          SortedMap.get?_insert_self _ _ _, fun hnone => hdel.started (hlast ▸ hnone), hsending,
          hreceived⟩
      · exact Accounted.other (s := s) hid rfl (SortedMap.get?_insert_of_ne hid) (List.Subset.refl _)
          (fun _ => Or.inl) (fun _ => Or.inl) (h.each id' payload' hmem')

theorem accounted_atReceiver {buf : Bytes} {env : Env} (honest : Honest s) (h : Accounted s)
    (hadmissible : Admissible s (.atReceiver buf env))
    (hstep : step senderAddr receiverAddr s (.atReceiver buf env) = some t) : Accounted t := by
  obtain ⟨hnet, hno⟩ := hadmissible
  obtain ⟨id, payload, hmem, rfl | ⟨i, hi, rfl⟩⟩ := honest.network buf hnet
  · -- a `Done` was only sent for a packet that is settled
    rw [step_done hstep]
    refine ⟨h.acks, h.logged, fun id' payload' hmem' => ?_⟩
    by_cases hid : id' = id
    · subst hid
      cases honest.payload_unique hmem hmem'
      rcases h.each id' payload hmem with hsettled | ⟨S, packet, acked, hdel⟩
      · exact Or.inl ⟨hsettled.dropped, hsettled.reported⟩
      · exact absurd hnet hdel.not_done
    · refine Accounted.other (s := s) hid ?_ rfl (List.Subset.refl _) (fun _ => Or.inl) (fun _ => Or.inl)
        (h.each id' payload' hmem')
      simp [SortedMap.get?_erase, hid]
  · have hsmall : chunkCount payload < seqIndexBound := honest.small _ hmem
    obtain ⟨S, hknows, heach⟩ : ∃ S, Knows payload S (s.receiver.packets.get? id) ∧
        (Settled s id payload ∨ ∃ packet acked, Delivering s id payload S packet acked) := by
      rcases h.each id payload hmem with hsettled | ⟨S, packet, acked, hdel⟩
      · obtain ⟨S, hS⟩ := honest.knows id payload hmem
        exact ⟨S, hS, Or.inl hsettled⟩
      · exact ⟨S, hdel.knows, Or.inr ⟨packet, acked, hdel⟩⟩
    obtain ⟨receiver, acks, reports, rfl, hknows', hframe, hacks, hreports⟩ :=
      step_part hknows hsmall hi hstep
    refine ⟨fun buf hbuf => ?_, h.logged, fun id' payload' hmem' => ?_⟩
    · rcases List.mem_append.mp hbuf with hold | hnew
      · exact h.acks buf hold
      · exact ⟨id, i, List.mem_map_of_mem hmem, hi.trans hsmall, hacks buf hnew⟩
    by_cases hid : id' = id
    · subst hid
      cases honest.payload_unique hmem hmem'
      rcases heach with hsettled | ⟨packet, acked, hdel⟩
      · exact Or.inl ⟨hsettled.dropped, List.mem_append_left _ hsettled.reported⟩
      · refine Or.inr ⟨insert i S, packet, acked, hknows', fun hfull => ?_, hdel.not_done,
          fun j hj hack => ?_, hdel.kept, hdel.started, hdel.sending,
          fun j hj => Finset.mem_insert_of_mem (hdel.received j hj)⟩
        · rcases hreports with ⟨-, hfail⟩ | ⟨rfl, -, -⟩
          · -- without an I/O error, only a duplicate is not reported
            by_cases hS : i ∈ S
            · rw [Finset.insert_eq_of_mem hS] at hfull
              exact List.mem_append_left _ (hdel.reported hfull)
            · exact absurd hno (hfail hS hfull)
          · exact List.mem_append_right _ List.mem_cons_self
        · rcases List.mem_append.mp hack with hold | hnew
          · exact Finset.mem_insert_of_mem (hdel.acks j hj hold)
          · rw [(ackDatagram_injective hj (hi.trans hsmall) (hacks _ hnew)).2]
            exact Finset.mem_insert_self _ _
    · refine Accounted.other (s := s) hid (hframe id' hid) rfl (List.subset_append_left _ _)
        (fun _ => Or.inl) (fun buf hbuf => ?_) (h.each id' payload' hmem')
      rcases List.mem_append.mp hbuf with hold | hnew
      · exact Or.inl hold
      · rw [hacks buf hnew]
        exact Or.inr datagramId_ackDatagram

/-! ## No silent loss -/

/-- What `Careful` steps preserve: the sender is honest, and every packet is accounted for. -/
theorem accounted_step {e : TransferEvent} (h : Honest s ∧ Accounted s)
    (hok : Admissible s e ∧ Careful receiverAddr s e)
    (hstep : (system senderAddr receiverAddr).step s e = some t) : Honest t ∧ Accounted t := by
  obtain ⟨honest, haccounted⟩ := h
  obtain ⟨hadmissible, hcareful⟩ := hok
  refine ⟨honest.step hadmissible.1 hstep, ?_⟩
  change step senderAddr receiverAddr s e = some t at hstep
  cases e with
  | send => exact accounted_send honest haccounted hadmissible hcareful hstep
  | sendPending => exact accounted_sendPending honest haccounted hstep
  | timeoutPackets => exact hadmissible.2.elim
  | atSender => exact accounted_atSender honest haccounted hadmissible hcareful hstep
  | atReceiver => exact accounted_atReceiver honest haccounted hadmissible hstep

/-- **No silent loss.**  In every run without I/O errors and timeouts, over a network that drops,
duplicates and reorders, in which the first batch of each packet is accepted and no ack marks a part
that was not received: a packet that the sender discarded was reassembled by the receiver. -/
theorem no_silent_loss (senderAddr receiverAddr : SocketAddr) (batchSize : NonZeroBatchSize)
    {s : Transfer}
    (hrun : (system senderAddr receiverAddr).GuardedRun
      (fun s e => Admissible s e ∧ Careful receiverAddr s e) (init batchSize) s)
    {id : PacketId} {payload : Bytes} (hsent : (id, payload) ∈ s.log)
    (hdiscarded : s.sender.packets.get? id = none) : (id, payload) ∈ s.reports := by
  have h : Honest s ∧ Accounted s :=
    hrun.invariant (I := fun s => Honest s ∧ Accounted s)
      (fun _ _ _ hI hok hstep => accounted_step hI hok hstep)
      ⟨honest_init batchSize, accounted_init batchSize⟩
  rcases h.2.each id payload hsent with hsettled | ⟨S, packet, acked, hdel⟩
  · exact hsettled.reported
  · rw [hdel.kept] at hdiscarded
    cases hdiscarded

/-! ## Concrete runs -/

/-- What has to be checked of `Admissible` and `Careful` in each state of a run. -/
def check (careful : Bool) (s : Transfer) (e : TransferEvent) : Bool :=
  decide (Genuine s e) &&
    match e with
    | .timeoutPackets _ => false
    | .atSender buf => buf ∈ s.toSender ∧
        (careful → ∀ entry ∈ s.sender.packets.entries, entry.2.packetQueue.firstUnacked = 0 ∨
          ∀ i < entry.2.packetQueue.packets.length,
            s.Received entry.1 (entry.2.packetQueue.firstUnacked + i))
    | _ => true

/-- The sockets of a step do not fail. -/
def SocketsWork : TransferEvent → Prop
  | .send _ _ env | .sendPending _ env | .atReceiver _ env => env.NoError
  | .timeoutPackets _ | .atSender _ => True

theorem admissible_of_check {careful : Bool} {e : TransferEvent} (hwork : SocketsWork e)
    (h : check careful s e = true) : Admissible s e := by
  obtain ⟨hgenuine, hrest⟩ := Bool.and_eq_true_iff.mp h
  refine ⟨of_decide_eq_true hgenuine, ?_⟩
  cases e with
  | send | sendPending | atReceiver => exact hwork
  | timeoutPackets => cases hrest
  | atSender => exact (of_decide_eq_true hrest).1

theorem careful_of_check {e : TransferEvent}
    (hfirst : ∀ threshold value env, e = .send threshold value env →
      ∀ attempts datagram, env.answer attempts datagram = .sent)
    (h : check true s e = true) : Careful receiverAddr s e := by
  cases e with
  | send threshold value env => exact fun _ _ _ _ => hfirst threshold value env rfl _ _
  | sendPending | timeoutPackets | atReceiver => trivial
  | atSender buf =>
    intro id seqIndex packet _ _ hget
    obtain ⟨-, hrest⟩ := Bool.and_eq_true_iff.mp h
    rcases (of_decide_eq_true hrest).2 rfl _ (SortedMap.mem_entries_of_get? hget) with hzero | hall
    · exact Or.inl hzero
    · by_cases hlt : seqIndex < packet.packetQueue.packets.length
      · exact Or.inr (Or.inr (hall seqIndex hlt))
      · refine Or.inr (Or.inl fun b hb => absurd ?_ hlt)
        exact (List.getElem?_eq_some_iff.mp hb).1

/-- Three parts are sent and the second one is lost, so all are sent again.  The parts arrive out of
order, the last one twice, and so do the acks. -/
theorem no_silent_loss_three_parts :
    ∃ s, (system 1 2).GuardedRun (fun s e => Admissible s e ∧ Careful 2 s e)
        (init ⟨8, by decide⟩) s ∧
      s.sender.packets.get? (.replicate 7) = none ∧
      (.replicate 7, List.replicate 983 1) ∈ s.reports := by
  obtain ⟨s, hrun, hs⟩ := Lts.exists_guardedRun (system 1 2)
    (fun s e => Admissible s e ∧ Careful 2 s e) (check true) (init ⟨8, by decide⟩)
    [.send 4 [List.replicate 983 1] (.accepting 0),
      .atReceiver (chunkDatagram (.replicate 7) (List.replicate 983 1) 2) (.accepting 0),
      .atReceiver (chunkDatagram (.replicate 7) (List.replicate 983 1) 0) (.accepting 0),
      .atReceiver (chunkDatagram (.replicate 7) (List.replicate 983 1) 2) (.accepting 0),
      .sendPending 0 (.accepting 1),
      .atReceiver (chunkDatagram (.replicate 7) (List.replicate 983 1) 1) (.accepting 1),
      .atSender (ackDatagram (.replicate 7) 0), .atSender (ackDatagram (.replicate 7) 1),
      .atSender (ackDatagram (.replicate 7) 0), .atSender (ackDatagram (.replicate 7) 2),
      .sendPending 0 (.accepting 2)]
    (fun s => s.log = [(.replicate 7, List.replicate 983 1)] ∧
      s.sender.packets.get? (.replicate 7) = none)
    (fun s e he hcheck => by
      refine ⟨admissible_of_check ?_ hcheck, careful_of_check ?_ hcheck⟩
      · simp only [List.mem_cons, List.not_mem_nil, or_false] at he
        rcases he with rfl | rfl | rfl | rfl | rfl | rfl | rfl | rfl | rfl | rfl | rfl
        all_goals first | exact Env.accepting_noError _ _ | trivial
      · rintro threshold value env rfl attempts datagram
        simp only [List.mem_cons, List.not_mem_nil, or_false, TransferEvent.send.injEq,
          reduceCtorEq] at he
        rw [he.2.2]
        rfl)
    (by decide +kernel)
  obtain ⟨hlog, hdropped⟩ := of_decide_eq_true hs
  exact ⟨s, hrun, hdropped, no_silent_loss 1 2 _ hrun (by rw [hlog]; exact List.mem_cons_self)
    hdropped⟩

/-- **Silent loss.**  Without `Careful`, packets are discarded that were never delivered.  A packet
of two parts is discarded although its second part is lost, if the ack of its first part is
duplicated; and a packet of one part is discarded without ever being sent, if the socket would block
at first. -/
theorem silent_loss :
    (∃ s, (system 1 2).GuardedRun Admissible (init ⟨8, by decide⟩) s ∧
      (.replicate 7, List.replicate 492 1) ∈ s.log ∧
      s.sender.packets.get? (.replicate 7) = none ∧ s.reports = []) ∧
    ∃ s, (system 1 2).GuardedRun Admissible (init ⟨8, by decide⟩) s ∧
      (.replicate 0, []) ∈ s.log ∧
      s.sender.packets.get? (.replicate 0) = none ∧ s.reports = [] := by
  constructor
  · obtain ⟨s, hrun, hs⟩ := Lts.exists_guardedRun (system 1 2) Admissible (check false)
      (init ⟨8, by decide⟩)
      [.send 4 [List.replicate 492 1] (.accepting 0),
        .atReceiver (chunkDatagram (.replicate 7) (List.replicate 492 1) 0) (.accepting 0),
        .atSender (ackDatagram (.replicate 7) 0), .atSender (ackDatagram (.replicate 7) 0),
        .sendPending 0 (.accepting 1)]
      (fun s => (.replicate 7, List.replicate 492 1) ∈ s.log ∧
        s.sender.packets.get? (.replicate 7) = none ∧ s.reports = [])
      (fun s e he hcheck => by
        refine admissible_of_check ?_ hcheck
        simp only [List.mem_cons, List.not_mem_nil, or_false] at he
        rcases he with rfl | rfl | rfl | rfl | rfl
        all_goals first | exact Env.accepting_noError _ _ | trivial)
      (by decide +kernel)
    exact ⟨s, hrun, of_decide_eq_true hs⟩
  · obtain ⟨s, hrun, hs⟩ := Lts.exists_guardedRun (system 1 2) Admissible (check false)
      (init ⟨8, by decide⟩)
      [.send 4 [] (Env.blocked 0), .sendPending 0 (.accepting 1)]
      (fun s => (.replicate 0, []) ∈ s.log ∧
        s.sender.packets.get? (.replicate 0) = none ∧ s.reports = [])
      (fun s e he hcheck => by
        refine admissible_of_check ?_ hcheck
        simp only [List.mem_cons, List.not_mem_nil, or_false] at he
        rcases he with rfl | rfl
        · exact Env.blocked_noError 0
        · exact Env.accepting_noError 1 _)
      (by decide +kernel)
    exact ⟨s, hrun, of_decide_eq_true hs⟩

end Transfer

end Ultinet
