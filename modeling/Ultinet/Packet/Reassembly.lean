import Ultinet.Packet.Buffers

/-!
# Reassembly undoes chunking

What the receive buffer knows of a packet is determined by the set of its parts that were handled
(`Knows`), for packets of one part as well as for packets of many.  `handle_chunk` describes the
handling of any part of a packet in terms of that set; `handleAll_chunks` follows a whole sequence of
parts, in whatever order they arrive.
-/

namespace Ultinet

open ReassembledPacket

/-! ## What is known of a packet -/

/-- What is known of a packet of which the parts in `S` were received. -/
def Knows (payload : Bytes) (S : Finset ℕ) : Option PacketIn → Prop
  | none => S = ∅
  | some entry =>
      match entry.packet with
      | none => chunkCount payload = 1 ∧ S = {0}
      | some packet => chunkCount payload ≠ 1 ∧ Reassembles payload S packet

/-- What becomes of part `i` of a packet of which the parts in `S` were received. -/
def partOutcome (payload : Bytes) (S : Finset ℕ) (i : ℕ) : ReceivedPacket :=
  if i ∈ S then .duplicate
  else if insert i S = Finset.range (chunkCount payload) then .reassembled payload
  else .pending

theorem Knows.subset {payload : Bytes} {S : Finset ℕ} {entry : Option PacketIn}
    (h : Knows payload S entry) : S ⊆ Finset.range (chunkCount payload) := by
  cases entry with
  | none =>
    rw [show S = ∅ from h]
    exact Finset.empty_subset _
  | some entry =>
    unfold Knows at h
    dsimp only at h
    split at h
    · obtain ⟨hone, rfl⟩ := h
      simp [hone]
    · exact h.2.parts

namespace ReceivePacketBuffer

variable {id : PacketId} {payload : Bytes} {S : Finset ℕ} {b : ReceivePacketBuffer} {i : ℕ}

/-- Handling the only part of a packet. -/
theorem receiveSingle_chunk (hb : Knows payload S (b.packets.get? id)) (hone : chunkCount payload = 1)
    (addr : SocketAddr) (env : Env) :
    ∃ b', b.receiveSingle id 0 payload addr env =
        ((Ultinet.ack id 0 addr env).1.map fun _ => partOutcome payload S 0, b',
          (Ultinet.ack id 0 addr env).2) ∧
      Knows payload (insert 0 S) (b'.packets.get? id) ∧
      ∀ id' ≠ id, b'.packets.get? id' = b.packets.get? id' := by
  cases hget : b.packets.get? id with
  | none =>
    rw [hget] at hb
    have hempty : S = ∅ := hb
    subst hempty
    refine ⟨{ b with packets := b.packets.insert id { lastReceive := env.now, packet := none } }, ?_,
      ?_, fun id' hne => SortedMap.get?_insert_of_ne hne⟩
    · have hout : partOutcome payload ∅ 0 = .reassembled payload := by
        simp [partOutcome, hone]
      simp only [receiveSingle, hget, hout]
      rcases Ultinet.ack id 0 addr env with ⟨_ | _, env'⟩ <;> rfl
    · rw [SortedMap.get?_insert_self]
      exact ⟨hone, by simp⟩
  | some entry =>
    rw [hget] at hb
    unfold Knows at hb
    dsimp only at hb
    split at hb
    · rename_i hnone
      obtain ⟨-, rfl⟩ := hb
      refine ⟨b, ?_, ?_, fun _ _ => rfl⟩
      · have hout : partOutcome payload {0} 0 = .duplicate := by simp [partOutcome]
        simp only [receiveSingle, hget, hnone, hout]
        rcases Ultinet.ack id 0 addr env with ⟨_ | _, env'⟩ <;> rfl
      · rw [hget]
        simp [Knows, hnone, hone]
    · exact absurd hone hb.1

/-- Handling one of several parts of a packet. -/
theorem receivePart_chunk (hb : Knows payload S (b.packets.get? id))
    (hn : chunkCount payload < seqIndexBound) (hmany : chunkCount payload ≠ 1)
    (hi : i < chunkCount payload) (addr : SocketAddr) (env : Env) :
    (i ∈ S ∧ b.receivePart (i + 1 = chunkCount payload) id i (chunkPayload payload i) addr env =
        .error (.panic "attempt to subtract with overflow")) ∨
      ∃ b', b.receivePart (i + 1 = chunkCount payload) id i (chunkPayload payload i) addr env =
          .ok ((Ultinet.ack id i addr env).1.map fun _ => partOutcome payload S i, b',
            (Ultinet.ack id i addr env).2) ∧
        Knows payload (insert i S) (b'.packets.get? id) ∧
        ∀ id' ≠ id, b'.packets.get? id' = b.packets.get? id' := by
  -- the entry that is used, whether it was there before or not
  obtain ⟨packet, hpacket, hentry⟩ : ∃ packet, Reassembles payload S packet ∧
      b.touchEntry id env = { lastReceive := env.now, packet := some packet } := by
    unfold touchEntry
    cases hget : b.packets.get? id with
    | none =>
      rw [hget] at hb
      rw [show S = ∅ from hb]
      exact ⟨.new, reassembles_new payload, rfl⟩
    | some entry =>
      rw [hget] at hb
      unfold Knows at hb
      dsimp only at hb
      split at hb
      · exact absurd hb.1 hmany
      · rename_i packet hsome
        exact ⟨packet, hb.2, by rw [← hsome]⟩
  have hstep : ∀ received packet',
      packet.receive (i + 1 = chunkCount payload) i (chunkPayload payload i) =
        .ok (received, packet') →
      b.receivePart (i + 1 = chunkCount payload) id i (chunkPayload payload i) addr env =
        .ok ((Ultinet.ack id i addr env).1.map fun _ => received,
          { b with packets := b.packets.insert id
                    { lastReceive := env.now, packet := some packet' } },
          (Ultinet.ack id i addr env).2) := by
    intro received packet' hreceive
    simp only [receivePart, hentry, hreceive]
    rcases Ultinet.ack id i addr env with ⟨_ | _, env'⟩ <;> rfl
  by_cases hS : i ∈ S
  · have hagain := receive_again hpacket hS
    by_cases hdrained : i < packet.firstPending
    · refine Or.inl ⟨hS, ?_⟩
      rw [if_pos hdrained] at hagain
      simp only [receivePart, hentry, hagain]
      rfl
    · rw [if_neg hdrained] at hagain
      refine Or.inr ⟨{ b with packets := b.packets.insert id
                                { lastReceive := env.now, packet := some packet } }, ?_, ?_,
        fun id' hne => SortedMap.get?_insert_of_ne hne⟩
      · rw [hstep _ _ hagain]
        simp [partOutcome, hS]
      · rw [SortedMap.get?_insert_self, Finset.insert_eq_of_mem hS]
        exact ⟨hmany, hpacket⟩
  · obtain ⟨packet', hnew, hpacket'⟩ := receive_new hpacket hn hi hS
    refine Or.inr ⟨{ b with packets := b.packets.insert id
                              { lastReceive := env.now, packet := some packet' } }, ?_, ?_,
      fun id' hne => SortedMap.get?_insert_of_ne hne⟩
    · rw [hstep _ _ hnew]
      simp [partOutcome, hS]
    · rw [SortedMap.get?_insert_self]
      exact ⟨hmany, hpacket'⟩

/-- **Handling a part.**  Handling part `i` of a packet panics, if it was handled before, or it acks
the part and adds it to the ones received; the other packets are left alone. -/
theorem handle_chunk (hb : Knows payload S (b.packets.get? id))
    (hn : chunkCount payload < seqIndexBound) (hi : i < chunkCount payload) (addr : SocketAddr)
    (env : Env) :
    (i ∈ S ∧ b.handle (chunkDatagram id payload i) addr env =
        .error (.panic "attempt to subtract with overflow")) ∨
      ∃ b', b.handle (chunkDatagram id payload i) addr env =
          .ok (((Ultinet.ack id i addr env).1.mapError .receive).map
              (fun _ => .ack (partOutcome payload S i)), b', (Ultinet.ack id i addr env).2) ∧
        Knows payload (insert i S) (b'.packets.get? id) ∧
        ∀ id' ≠ id, b'.packets.get? id' = b.packets.get? id' := by
  have hhandle := b.handle_part id (chunkPayload payload i) (i + 1 = chunkCount payload)
    (hi.trans hn) addr env
  rw [← chunkDatagram] at hhandle
  by_cases hone : chunkCount payload = 1
  · have hzero : i = 0 := by omega
    subst hzero
    obtain ⟨b', hreceive, hknows, hframe⟩ := receiveSingle_chunk hb hone addr env
    refine Or.inr ⟨b', ?_, hknows, hframe⟩
    rw [hhandle, receive, if_pos (by simp [hone]), chunkPayload_zero hone, hreceive]
    rcases Ultinet.ack id 0 addr env with ⟨_ | _, env'⟩ <;> rfl
  · have hpath : ¬((decide (i + 1 = chunkCount payload) : Bool) = true ∧ i = 0) := by
      rintro ⟨hlast, rfl⟩
      exact hone (of_decide_eq_true hlast).symm
    rcases receivePart_chunk hb hn hone hi addr env with ⟨hS, hpanic⟩ | ⟨b', hreceive, hknows, hframe⟩
    · refine Or.inl ⟨hS, ?_⟩
      rw [hhandle, receive, if_neg hpath, hpanic]
      rfl
    · refine Or.inr ⟨b', ?_, hknows, hframe⟩
      rw [hhandle, receive, if_neg hpath, hreceive]
      rcases Ultinet.ack id i addr env with ⟨_ | _, env'⟩ <;> rfl

/-! ## Handling a sequence of datagrams -/

/-- Handle datagrams one after the other, each with its own environment. -/
def handleAll (addr : SocketAddr) :
    ReceivePacketBuffer → List (Bytes × Env) →
      Exec (List (Except HandlePacketError ReceivedPacketHandling) × ReceivePacketBuffer)
  | b, [] => .ok ([], b)
  | b, (buf, env) :: rest => do
      let (result, b, _) ← b.handle buf addr env
      let (results, b) ← handleAll addr b rest
      return (result :: results, b)

/-- The outcomes of handling the parts `is`, of a packet of which the parts in `S` were received. -/
def partOutcomes (payload : Bytes) : Finset ℕ → List ℕ → List ReceivedPacket
  | _, [] => []
  | S, i :: is => partOutcome payload S i :: partOutcomes payload (insert i S) is

/-- Handling parts that were not received before, in any order. -/
theorem handleAll_chunks (hn : chunkCount payload < seqIndexBound) (addr : SocketAddr)
    (deliveries : List (ℕ × Env)) (hb : Knows payload S (b.packets.get? id))
    (hi : ∀ d ∈ deliveries, d.1 < chunkCount payload ∧ d.1 ∉ S ∧ d.2.NoError)
    (hnodup : (deliveries.map Prod.fst).Nodup) :
    ∃ b', handleAll addr b (deliveries.map fun d => (chunkDatagram id payload d.1, d.2)) =
      .ok ((partOutcomes payload S (deliveries.map Prod.fst)).map fun r => .ok (.ack r), b') := by
  induction deliveries generalizing S b with
  | nil => exact ⟨b, rfl⟩
  | cons d deliveries ih =>
    obtain ⟨i, env⟩ := d
    obtain ⟨hlt, hnew, hno⟩ := hi (i, env) List.mem_cons_self
    rw [List.map_cons, List.nodup_cons] at hnodup
    rcases handle_chunk hb hn hlt addr env with ⟨hS, -⟩ | ⟨b', hhandle, hknows, -⟩
    · exact absurd hS hnew
    obtain ⟨b'', hrest⟩ := ih hknows (fun d hd => by
      obtain ⟨hlt', hnew', hno'⟩ := hi d (List.mem_cons_of_mem _ hd)
      refine ⟨hlt', fun hmem => ?_, hno'⟩
      rcases Finset.mem_insert.mp hmem with heq | hmem
      · exact hnodup.1 (heq ▸ List.mem_map_of_mem hd)
      · exact hnew' hmem) hnodup.2
    obtain ⟨sent, -, -, hack⟩ := ack_spec id i addr env
    rcases hack with ⟨error, -, herror⟩ | hok
    · exact absurd hno herror
    refine ⟨b'', ?_⟩
    rw [List.map_cons, handleAll, hhandle, hok]
    simp only [Except.mapError, Except.map, bind, Except.bind, hrest]
    rfl

/-- In any order, every part but the last one to arrive leaves the packet pending. -/
theorem partOutcomes_perm {is : List ℕ}
    (hperm : is.Perm (List.range (chunkCount payload))) :
    partOutcomes payload ∅ is =
      List.replicate (chunkCount payload - 1) .pending ++ [.reassembled payload] := by
  -- the parts still to come are the ones that are missing
  have hgen : ∀ (is : List ℕ) (S : Finset ℕ), is ≠ [] → is.Nodup → (∀ i ∈ is, i ∉ S) →
      S ∪ is.toFinset = Finset.range (chunkCount payload) →
      partOutcomes payload S is =
        List.replicate (is.length - 1) .pending ++ [.reassembled payload] := by
    intro is
    induction is with
    | nil => exact fun _ hne => absurd rfl hne
    | cons i is ih =>
      intro S _ hnodup hnew hunion
      rw [List.nodup_cons] at hnodup
      have hi : i ∉ S := hnew i List.mem_cons_self
      cases is with
      | nil =>
        have hfull : insert i S = Finset.range (chunkCount payload) := by
          rw [← hunion]
          ext k
          simp
        simp [partOutcomes, partOutcome, hi, hfull]
      | cons j is =>
        have hj : j ∉ insert i S := by
          rw [Finset.mem_insert]
          rintro (rfl | hS)
          · exact hnodup.1 List.mem_cons_self
          · exact hnew j (by simp) hS
        have hmissing : insert i S ≠ Finset.range (chunkCount payload) := by
          intro heq
          refine hj (heq ▸ hunion ▸ ?_)
          simp
        have hrest := ih (insert i S) (by simp) hnodup.2 (fun k hk => by
          rw [Finset.mem_insert]
          rintro (rfl | hS)
          · exact hnodup.1 hk
          · exact hnew k (List.mem_cons_of_mem _ hk) hS) (by
          rw [← hunion]
          ext k
          simp
          tauto)
        rw [partOutcomes, hrest, partOutcome, if_neg hi, if_neg hmissing]
        simp [List.replicate_succ]
  have hpos := chunkCount_pos payload
  have hlen : is.length = chunkCount payload := by simpa using hperm.length_eq
  have hne : is ≠ [] := by
    rintro rfl
    simp at hlen
    omega
  rw [hgen is ∅ hne (hperm.nodup_iff.mpr List.nodup_range) (by simp)
    (by ext i; simp [hperm.mem_iff]), hlen]

end ReceivePacketBuffer

/-- A permutation of the datagrams of a packet delivers its parts in some order. -/
theorem exists_order {id : PacketId} {payload : Bytes} {deliveries : List (Bytes × Env)}
    (hperm : (deliveries.map Prod.fst).Perm
      ((List.range (chunkCount payload)).map (chunkDatagram id payload))) :
    ∃ parts : List (ℕ × Env),
      deliveries = parts.map (fun d => (chunkDatagram id payload d.1, d.2)) ∧
      (parts.map Prod.fst).Perm (List.range (chunkCount payload)) := by
  obtain ⟨order, horder, hrange⟩ :=
    (congrFun₂ (List.eq_map_comp_perm (chunkDatagram id payload)) _ _).mpr hperm
  have hlen : order.length = (deliveries.map Prod.snd).length := by
    have := congrArg List.length horder
    simpa using this.symm
  refine ⟨order.zip (deliveries.map Prod.snd), ?_, ?_⟩
  · have hzip : deliveries = (deliveries.map Prod.fst).zip (deliveries.map Prod.snd) :=
      (List.zip_of_prod rfl rfl)
    rw [horder, List.zip_map_left] at hzip
    exact hzip
  · rw [List.map_fst_zip hlen.le]
    exact hrange

/-- The parts a value is serialized into. -/
theorem buffers_serializePacket {id : PacketId} {threshold : ℕ} {value : List Bytes}
    {packet : SerializedPacket} (hn : chunkCount value.flatten < seqIndexBound)
    (hpacket : serializePacket id threshold value = .ok packet) :
    packet.buffers = chunkBuffers id value.flatten := by
  rw [serializePacket_eq hn] at hpacket
  cases hpacket
  split_ifs <;> rfl

/-- The datagrams of the parts of a packet. -/
theorem deref_chunkBuffers (id : PacketId) (payload : Bytes) :
    (chunkBuffers id payload).map PacketBuffer.deref =
      (List.range (chunkCount payload)).map (chunkDatagram id payload) := by
  simp [chunkBuffers]

/-- Handling the datagrams of a packet in any order, once each, when its id is not known. -/
theorem ReceivePacketBuffer.handleAll_datagrams {id : PacketId} {payload : Bytes}
    (hn : chunkCount payload < seqIndexBound) {b : ReceivePacketBuffer}
    (hunknown : b.packets.get? id = none) (addr : SocketAddr) (deliveries : List (Bytes × Env))
    (horder : (deliveries.map Prod.fst).Perm
      ((List.range (chunkCount payload)).map (chunkDatagram id payload)))
    (hacks : ∀ d ∈ deliveries, d.2.NoError) :
    ∃ b', b.handleAll addr deliveries =
      .ok (List.replicate (chunkCount payload - 1) (.ok (.ack .pending)) ++
        [.ok (.ack (.reassembled payload))], b') := by
  obtain ⟨parts, rfl, hparts⟩ := exists_order horder
  have hknows : Knows payload ∅ (b.packets.get? id) := by
    rw [hunknown]
    rfl
  obtain ⟨b', hall⟩ := ReceivePacketBuffer.handleAll_chunks hn addr parts hknows
    (fun d hd => by
      refine ⟨?_, Finset.notMem_empty _, ?_⟩
      · exact List.mem_range.mp (hparts.mem_iff.mp (List.mem_map_of_mem hd))
      · exact hacks (chunkDatagram id payload d.1, d.2) (List.mem_map.mpr ⟨d, hd, rfl⟩))
    (hparts.nodup_iff.mpr List.nodup_range)
  refine ⟨b', ?_⟩
  rw [hall, ReceivePacketBuffer.partOutcomes_perm hparts, List.map_append, List.map_replicate]
  rfl

/-- **Reassembly undoes chunking.**  Let a value be serialized into fewer than `2 ^ 32` parts, and
let the datagrams of the parts arrive in any order, once each, at a receive buffer that does not know
the id.  If no ack fails then every datagram but the last leaves the packet pending, and the last one
reassembles exactly the bytes that were serialized. -/
theorem reassembles_in_every_order {id : PacketId} {threshold : ℕ} {value : List Bytes}
    {packet : SerializedPacket} (hpacket : serializePacket id threshold value = .ok packet)
    (hcount : max 1 ((value.flatten.length + 490) / 491) < 2 ^ 32)
    {b : ReceivePacketBuffer} (hunknown : b.packets.get? id = none) (addr : SocketAddr)
    (deliveries : List (Bytes × Env))
    (horder : (deliveries.map Prod.fst).Perm (packet.buffers.map PacketBuffer.deref))
    (hacks : ∀ d ∈ deliveries, d.2.NoError) :
    ∃ b', b.handleAll addr deliveries =
      .ok (List.replicate (packet.buffers.length - 1) (.ok (.ack .pending)) ++
        [.ok (.ack (.reassembled value.flatten))], b') := by
  have hn : chunkCount value.flatten < seqIndexBound := hcount
  have hbuffers := buffers_serializePacket hn hpacket
  rw [hbuffers, deref_chunkBuffers] at horder
  rw [hbuffers, length_chunkBuffers]
  exact ReceivePacketBuffer.handleAll_datagrams hn hunknown addr deliveries horder hacks

/-- Two parts in the wrong order, whose acks are never sent. -/
theorem reassembles_reversed :
    ∃ b', ReceivePacketBuffer.new.handleAll 9
        (((chunkBuffers (.replicate 7) (List.replicate 500 1)).map PacketBuffer.deref).reverse.map
          fun buf => (buf, Env.blocked 0)) =
      .ok ([.ok (.ack .pending), .ok (.ack (.reassembled (List.replicate 500 1)))], b') := by
  have hcount : chunkCount (List.replicate 500 1) = 2 := by
    simp [chunkCount, Chunking.count, partPacketPayloadSize, packetDataSize, packetBufferSize,
      packetKindSize, packetIdSize, seqIndexSize, -List.reduceReplicate]
  have hpacket : serializePacket (.replicate 7) 4 [List.replicate 500 1] =
      .ok (.vec (chunkBuffers (.replicate 7) (List.replicate 500 1))) := by
    have hflat : [List.replicate 500 (1 : UInt8)].flatten = List.replicate 500 1 := by
      simp [-List.reduceReplicate]
    rw [serializePacket_eq (by rw [hflat, hcount]; decide), hflat, hcount]
    rfl
  have h := reassembles_in_every_order hpacket (by simp [-List.reduceReplicate])
    (b := ReceivePacketBuffer.new) rfl 9
    (((chunkBuffers (.replicate 7) (List.replicate 500 1)).map
      PacketBuffer.deref).reverse.map fun buf => (buf, Env.blocked 0))
    (by simp [SerializedPacket.buffers, Function.comp_def, List.reverse_perm,
      -List.reduceReplicate])
    (by simp [Env.blocked_noError, -List.reduceReplicate])
  simpa [SerializedPacket.buffers, hcount, -List.reduceReplicate] using h

end Ultinet
