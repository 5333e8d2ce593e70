import Ultinet.Lib.Keyed
import Ultinet.Packet.Dispatch
import Ultinet.Packet.Reassembly
import Ultinet.Packet.Transfer

/-!
# Packets do not disturb each other

The datagrams of many packets arrive interleaved, parts and `Done`s of packets being received as well
as acks of packets being sent.  The buffers keep one entry per id, and a datagram is handled with the
entry of its id only: the buffers are a store in the sense of `Keyed` whose events are local
(`PacketBuffers.keyed_local`).

So every packet fares as if its datagrams were the only ones (`PacketBuffers.handle_interleaved`).  In
particular any number of packets are reassembled at the same time, however their parts are interleaved
(`PacketBuffers.reassembles_interleaved`).
-/

namespace Ultinet

/-! ## Receiving a part -/

namespace ReceivePacketBuffer

variable {b b' c : ReceivePacketBuffer} {last : Bool} {id k : PacketId} {seqIndex : ℕ} {payload : Bytes}
  {addr : SocketAddr} {env env' : Env} {result : Except PacketReceiveError ReceivedPacket}

/-- The only part of a packet leaves the other packets alone. -/
theorem receiveSingle_frame (b : ReceivePacketBuffer) (hk : k ≠ id) (seqIndex : ℕ) (payload : Bytes)
    (addr : SocketAddr) (env : Env) :
    (b.receiveSingle id seqIndex payload addr env).2.1.packets.get? k = b.packets.get? k := by
  unfold receiveSingle
  split
  · dsimp only
    split <;> exact SortedMap.get?_insert_of_ne hk
  · split
    · split <;> rfl
    · rfl

/-- What becomes of the only part of a packet is determined by the entry of the packet. -/
theorem receiveSingle_determined (hentry : c.packets.get? id = b.packets.get? id) (seqIndex : ℕ)
    (payload : Bytes) (addr : SocketAddr) (env : Env) :
    ∃ c', c.receiveSingle id seqIndex payload addr env =
        ((b.receiveSingle id seqIndex payload addr env).1, c',
          (b.receiveSingle id seqIndex payload addr env).2.2) ∧
      c'.packets.get? id = (b.receiveSingle id seqIndex payload addr env).2.1.packets.get? id := by
  unfold receiveSingle
  rw [hentry]
  cases hget : b.packets.get? id with
  | none =>
    refine ⟨{ c with packets := c.packets.insert id ⟨env.now, none⟩ }, ?_, ?_⟩ <;>
      rcases Ultinet.ack id seqIndex addr env with ⟨_ | _, env'⟩ <;> simp
  | some entry =>
    rw [hget] at hentry
    obtain ⟨lastReceive, packet⟩ := entry
    cases packet with
    | none =>
      refine ⟨c, ?_, ?_⟩ <;> rcases Ultinet.ack id seqIndex addr env with ⟨_ | _, env'⟩
      · rfl
      · rfl
      · exact hentry.trans hget.symm
      · exact hentry.trans hget.symm
    | some packet => exact ⟨c, rfl, hentry.trans hget.symm⟩

/-- The entry of a packet of several parts does not depend on other packets. -/
theorem touchEntry_determined (hentry : c.packets.get? id = b.packets.get? id) (env : Env) :
    c.touchEntry id env = b.touchEntry id env := by
  unfold touchEntry
  rw [hentry]

/-- One of several parts of a packet: what becomes of its entry, and of nothing else. -/
theorem receivePart_entry (h : b.receivePart last id seqIndex payload addr env = .ok (result, b', env')) :
    ∃ entry, b' = { b with packets := b.packets.insert id entry } ∧
      ∀ c : ReceivePacketBuffer, c.packets.get? id = b.packets.get? id →
        c.receivePart last id seqIndex payload addr env =
          .ok (result, { c with packets := c.packets.insert id entry }, env') := by
  unfold receivePart at h
  dsimp only at h
  cases hpacket : (b.touchEntry id env).packet with
  | none =>
    rw [hpacket] at h
    cases h
    refine ⟨_, rfl, fun c hentry => ?_⟩
    simp only [receivePart, touchEntry_determined hentry, hpacket]
  | some packet =>
    rw [hpacket] at h
    obtain ⟨⟨received, packet'⟩, hreceive, h⟩ := exists_of_bind_ok h
    refine ⟨{ b.touchEntry id env with packet := some packet' }, ?_, fun c hentry => ?_⟩
    · dsimp only at h
      split at h <;> cases h <;> rfl
    · simp only [receivePart, touchEntry_determined hentry, hpacket, hreceive, bind, Except.bind]
      dsimp only at h
      split at h <;> cases h <;> rfl

/-- A part leaves the other packets alone. -/
theorem receive_frame (h : b.receive last id seqIndex payload addr env = .ok (result, b', env'))
    (hk : k ≠ id) : b'.packets.get? k = b.packets.get? k := by
  unfold receive at h
  split_ifs at h
  · have hframe := b.receiveSingle_frame hk seqIndex payload addr env
    rw [Except.ok.inj h] at hframe
    exact hframe
  · obtain ⟨entry, rfl, -⟩ := receivePart_entry h
    exact SortedMap.get?_insert_of_ne hk

/-- What becomes of a part is determined by the entry of its packet. -/
theorem receive_determined (h : b.receive last id seqIndex payload addr env = .ok (result, b', env'))
    (hentry : c.packets.get? id = b.packets.get? id) :
    ∃ c', c.receive last id seqIndex payload addr env = .ok (result, c', env') ∧
      c'.packets.get? id = b'.packets.get? id := by
  unfold receive at h ⊢
  split_ifs at h ⊢
  · obtain ⟨c', hc, hget⟩ := receiveSingle_determined hentry seqIndex payload addr env
    rw [Except.ok.inj h] at hc hget
    exact ⟨c', congrArg Except.ok hc, hget⟩
  · obtain ⟨entry, rfl, hsame⟩ := receivePart_entry h
    refine ⟨_, hsame c hentry, ?_⟩
    simp

end ReceivePacketBuffer

/-! ## Handling a datagram -/

/-- The id in an ack, whatever follows it. -/
theorem datagramId_ackDatagram_append (id : PacketId) (seqIndex : ℕ) (rest : Bytes) :
    datagramId (ackDatagram id seqIndex ++ rest) = some id := by
  have h := slice_id PacketKind.ack.toByte id (SeqIndex.toLeBytes seqIndex ++ rest)
  rw [← List.append_assoc, ← ackDatagram_eq] at h
  exact h

/-- The id in a `Done`, whatever follows it. -/
theorem datagramId_doneDatagram_append (id : PacketId) (rest : Bytes) :
    datagramId (doneDatagram id ++ rest) = some id := by
  have h := slice_id PacketKind.done.toByte id rest
  rw [← doneDatagram_eq] at h
  exact h

/-- A well-formed datagram names a packet. -/
theorem WellFormed.exists_datagramId {buf : Bytes} (h : WellFormed buf) :
    ∃ id, datagramId buf = some id := by
  rcases h.cases with ⟨last, id, seqIndex, payload, -, rfl⟩ | ⟨id, seqIndex, rest, -, rfl⟩ |
    ⟨id, rest, rfl⟩
  · exact ⟨id, Transfer.datagramId_partDatagram last seqIndex⟩
  · exact ⟨id, datagramId_ackDatagram_append id seqIndex rest⟩
  · exact ⟨id, datagramId_doneDatagram_append id rest⟩

namespace PacketBuffers

variable {b b' c : PacketBuffers} {buf : Bytes} {id k : PacketId} {addr : SocketAddr} {env env' : Env}
  {result : Except HandlePacketError PacketHandling}

/-- What is kept about a packet, in either direction. -/
def entry (b : PacketBuffers) (id : PacketId) : Option PacketOut × Option PacketIn :=
  (b.sendBuffer.packets.get? id, b.receiveBuffer.packets.get? id)

theorem entry_eq_iff : c.entry id = b.entry id ↔
    c.sendBuffer.packets.get? id = b.sendBuffer.packets.get? id ∧
      c.receiveBuffer.packets.get? id = b.receiveBuffer.packets.get? id :=
  Prod.ext_iff

/-- A datagram leaves the packets alone that it does not name. -/
theorem handle_frame (h : b.handle buf addr env = .ok (result, b', env'))
    (hk : datagramId buf ≠ some k) : b'.entry k = b.entry k := by
  by_cases hwf : WellFormed buf
  · rcases hwf.cases with ⟨last, id, seqIndex, payload, hseq, rfl⟩ | ⟨id, seqIndex, rest, hseq, rfl⟩ |
      ⟨id, rest, rfl⟩
    · rw [Transfer.datagramId_partDatagram] at hk
      have hne : k ≠ id := fun heq => hk (congrArg some heq.symm)
      rw [b.handle_part addr env last id hseq payload, receive] at h
      cases hreceive : b.receiveBuffer.receive last id seqIndex payload addr env with
      | error abort =>
        rw [hreceive] at h
        cases h
      | ok received =>
        rw [hreceive] at h
        cases h
        exact entry_eq_iff.mpr ⟨rfl, ReceivePacketBuffer.receive_frame hreceive hne⟩
    · rw [datagramId_ackDatagram_append] at hk
      have hne : k ≠ id := fun heq => hk (congrArg some heq.symm)
      rw [b.handle_ack addr env id hseq rest] at h
      cases h
      refine entry_eq_iff.mpr ⟨?_, rfl⟩
      exact (b.sendBuffer.get?_ack id seqIndex k).trans (if_neg hne)
    · rw [datagramId_doneDatagram_append] at hk
      have hne : k ≠ id := fun heq => hk (congrArg some heq.symm)
      rw [b.handle_done addr env id rest] at h
      cases h
      refine entry_eq_iff.mpr ⟨rfl, ?_⟩
      exact (SortedMap.get?_erase _ _ _).trans (if_neg hne)
  · obtain ⟨error, -, hhandle⟩ := b.handle_of_not_wellFormed addr env hwf
    rw [hhandle] at h
    cases h
    rfl

/-- What becomes of a datagram is determined by the entry of the packet that it names. -/
theorem handle_determined (h : b.handle buf addr env = .ok (result, b', env'))
    (hid : datagramId buf = some k) (hentry : c.entry k = b.entry k) :
    ∃ c', c.handle buf addr env = .ok (result, c', env') ∧ c'.entry k = b'.entry k := by
  obtain ⟨hsend, hreceive⟩ := entry_eq_iff.mp hentry
  by_cases hwf : WellFormed buf
  · rcases hwf.cases with ⟨last, id, seqIndex, payload, hseq, rfl⟩ | ⟨id, seqIndex, rest, hseq, rfl⟩ |
      ⟨id, rest, rfl⟩
    · rw [Transfer.datagramId_partDatagram] at hid
      obtain rfl : id = k := Option.some.inj hid
      rw [handle_part _ _ _ _ _ hseq] at h ⊢
      unfold receive at h ⊢
      cases hb : b.receiveBuffer.receive last id seqIndex payload addr env with
      | error abort =>
        rw [hb] at h
        cases h
      | ok received =>
        obtain ⟨outcome, receiveBuffer, env''⟩ := received
        rw [hb] at h
        cases h
        obtain ⟨receiveBuffer', hc, hget⟩ := ReceivePacketBuffer.receive_determined hb hreceive
        rw [hc]
        exact ⟨_, rfl, entry_eq_iff.mpr ⟨hsend, hget⟩⟩
    · rw [datagramId_ackDatagram_append] at hid
      obtain rfl : id = k := Option.some.inj hid
      rw [handle_ack _ _ _ _ hseq] at h ⊢
      cases h
      have hsame : (c.sendBuffer.ack id seqIndex).1 = (b.sendBuffer.ack id seqIndex).1 := by
        unfold SendPacketBuffer.ack
        rw [hsend]
        split
        · rfl
        · dsimp only
          split <;> rfl
      refine ⟨(c.ack id seqIndex).2, ?_, entry_eq_iff.mpr ⟨?_, hreceive⟩⟩
      · simp only [ack, hsame]
      · refine (c.sendBuffer.get?_ack id seqIndex id).trans ?_
        rw [hsend]
        exact (b.sendBuffer.get?_ack id seqIndex id).symm
    · rw [datagramId_doneDatagram_append] at hid
      obtain rfl : id = k := Option.some.inj hid
      rw [handle_done] at h ⊢
      cases h
      refine ⟨(c.done id).2, ?_, entry_eq_iff.mpr ⟨hsend, ?_⟩⟩
      · simp only [done, ReceivePacketBuffer.done, hreceive]
      · simp [done, ReceivePacketBuffer.done, SortedMap.get?_erase]
  · obtain ⟨error, -, hhandle⟩ := exists_rejection hwf
    rw [hhandle] at h ⊢
    cases h
    exact ⟨c, rfl, hentry⟩

/-! ## The buffers as a store -/

end PacketBuffers

/-- What happens to the buffers: a datagram arrives, or packets time out. -/
inductive BuffersEvent
  | handle (buf : Bytes) (env : Env)
  | timeoutPackets (maxMissedAcks receiveTimeout : Option ℕ) (env : Env)

namespace BuffersEvent

/-- A datagram concerns the packet that it names, and timeouts concern every packet. -/
def concerns (id : PacketId) : BuffersEvent → Bool
  | handle buf _ => decide (datagramId buf = some id)
  | timeoutPackets _ _ _ => true

end BuffersEvent

namespace PacketBuffers

variable {b : PacketBuffers} {addr : SocketAddr}

/-- One event.  A datagram is answered with the result of its handling, and what was sent. -/
def stepEvent (addr : SocketAddr) (b : PacketBuffers) : BuffersEvent →
    Exec (Option (Except HandlePacketError PacketHandling × Env) × PacketBuffers)
  | .handle buf env =>
      (b.handle buf addr env).map fun (result, b, env) => (some (result, env), b)
  | .timeoutPackets maxMissedAcks receiveTimeout env =>
      .ok (none, b.timeoutPackets maxMissedAcks receiveTimeout env)

/-- The buffers as a store of packets. -/
def keyed (addr : SocketAddr) : Keyed PacketBuffers PacketId (Option PacketOut × Option PacketIn)
    BuffersEvent (Option (Except HandlePacketError PacketHandling × Env)) Abort where
  step := stepEvent addr
  entry := entry
  concerns := BuffersEvent.concerns

/-- What times out is determined by the entry of each packet. -/
theorem timeoutPackets_determined {c : PacketBuffers} {id : PacketId} (hentry : c.entry id = b.entry id)
    (maxMissedAcks receiveTimeout : Option ℕ) (env : Env) :
    (c.timeoutPackets maxMissedAcks receiveTimeout env).entry id =
      (b.timeoutPackets maxMissedAcks receiveTimeout env).entry id := by
  obtain ⟨hsend, hreceive⟩ := entry_eq_iff.mp hentry
  refine entry_eq_iff.mpr ⟨?_, ?_⟩
  · cases maxMissedAcks with
    | none => exact hsend
    | some limit =>
      simp only [timeoutPackets, SendPacketBuffer.timeoutPackets, SortedMap.get?_retain, hsend]
  · cases receiveTimeout with
    | none => exact hreceive
    | some timeout =>
      simp only [timeoutPackets, ReceivePacketBuffer.timeoutPackets, SortedMap.get?_retain, hreceive]

/-- A step that handles a datagram. -/
theorem stepEvent_handle {b' : PacketBuffers} {buf : Bytes} {env : Env}
    {answer : Option (Except HandlePacketError PacketHandling × Env)}
    (h : b.stepEvent addr (.handle buf env) = .ok (answer, b')) :
    ∃ result env', b.handle buf addr env = .ok (result, b', env') ∧ answer = some (result, env') := by
  change (b.handle buf addr env).map _ = _ at h
  cases hhandle : b.handle buf addr env with
  | error abort =>
    rw [hhandle] at h
    cases h
  | ok handled =>
    obtain ⟨result, b'', env'⟩ := handled
    rw [hhandle] at h
    cases h
    exact ⟨result, env', rfl, rfl⟩

/-- **Every event is local**: it is answered, and changes what is kept about a packet, as this packet
alone says. -/
theorem keyed_local (addr : SocketAddr) : (keyed addr).Local where
  frame := by
    intro b b' event answer id hstep hother
    cases event with
    | handle buf env =>
      obtain ⟨result, env', hhandle, -⟩ := stepEvent_handle hstep
      exact handle_frame hhandle (of_decide_eq_false hother)
    | timeoutPackets maxMissedAcks receiveTimeout env => cases hother
  determined := by
    intro b c b' event answer id hstep hid hentry
    cases event with
    | handle buf env =>
      obtain ⟨result, env', hhandle, rfl⟩ := stepEvent_handle hstep
      obtain ⟨c', hc, hentry'⟩ := handle_determined hhandle (of_decide_eq_true hid) hentry
      refine ⟨c', ?_, hentry'⟩
      change (c.handle buf addr env).map _ = _
      rw [hc]
      rfl
    | timeoutPackets maxMissedAcks receiveTimeout env =>
      cases hstep
      exact ⟨_, rfl, timeoutPackets_determined hentry maxMissedAcks receiveTimeout env⟩
  free := by
    intro b event hnone
    cases event with
    | handle buf env =>
      have hwf : ¬WellFormed buf := by
        intro hwf
        obtain ⟨id, hid⟩ := hwf.exists_datagramId
        exact absurd hid (of_decide_eq_false (hnone id))
      obtain ⟨error, -, hhandle⟩ := b.handle_of_not_wellFormed addr env hwf
      refine ⟨some (.error error, env), b, ?_⟩
      change (b.handle buf addr env).map _ = _
      rw [hhandle]
      rfl
    | timeoutPackets maxMissedAcks receiveTimeout env => exact ⟨_, _, rfl⟩

/-- **Packets do not disturb each other.**  However the datagrams of packets are interleaved, and
whenever packets time out in between: the datagrams of each packet are answered as if they were the
only ones, and what is kept about the packet in the end is the same.  And the program panics on all
of them exactly if it panics on those of one of the packets alone. -/
theorem handle_interleaved (addr : SocketAddr) (b : PacketBuffers) (events : List BuffersEvent) :
    (∀ answers b', (keyed addr).run b events = .ok (answers, b') → ∀ id, ∃ own,
      (keyed addr).run b ((keyed addr).eventsOf id events) =
          .ok ((keyed addr).answersOf id answers, own) ∧
        own.entry id = b'.entry id) ∧
      ((∃ answers b', (keyed addr).run b events = .ok (answers, b')) ↔
        ∀ id, ∃ answers b', (keyed addr).run b ((keyed addr).eventsOf id events) =
          .ok (answers, b')) :=
  ⟨fun _ _ hrun id => (keyed_local addr).run_filter hrun (rfl : b.entry id = b.entry id),
    (keyed_local addr).run_ok_iff b events⟩

/-! ## Reassembling many packets at the same time -/

/-- A part of a packet arrives: the packet, the index of the part, and the environment of the call. -/
abbrev Delivery := PacketId × ℕ × Env

/-- The parts of packets with these payloads arrive. -/
def deliveryEvents (payload : PacketId → Bytes) (deliveries : List Delivery) : List BuffersEvent :=
  deliveries.map fun d => .handle (chunkDatagram d.1 (payload d.1) d.2.1) d.2.2

/-- The deliveries of one packet. -/
def deliveriesOf (id : PacketId) (deliveries : List Delivery) : List Delivery :=
  deliveries.filter fun d => decide (d.1 = id)

/-- How the datagrams of a packet were handled. -/
def resultsOf (addr : SocketAddr) (id : PacketId)
    (answers : List (BuffersEvent × Option (Except HandlePacketError PacketHandling × Env))) :
    List (Except HandlePacketError PacketHandling) :=
  ((keyed addr).answersOf id answers).filterMap fun answer => answer.2.map Prod.fst

/-- The events of one packet are its deliveries. -/
theorem eventsOf_deliveryEvents (payload : PacketId → Bytes) (id : PacketId)
    (deliveries : List Delivery) :
    (keyed addr).eventsOf id (deliveryEvents payload deliveries) =
      deliveryEvents payload (deliveriesOf id deliveries) := by
  unfold Keyed.eventsOf deliveryEvents deliveriesOf
  rw [List.filter_map]
  congr 1
  refine List.filter_congr fun d _ => ?_
  simp [keyed, BuffersEvent.concerns, Transfer.datagramId_chunkDatagram]

/-- A part that was not received before. -/
theorem handle_new_chunk {payload : Bytes} {S : Finset ℕ} {id : PacketId} {i : ℕ} {env : Env}
    (hb : Knows payload S (b.receiveBuffer.packets.get? id))
    (hn : chunkCount payload < seqIndexBound) (hi : i < chunkCount payload) (hnew : i ∉ S)
    (addr : SocketAddr) (hno : env.NoError) :
    ∃ b' env', b.handle (chunkDatagram id payload i) addr env =
        .ok (.ok (.received (partOutcome payload S i)), b', env') ∧
      Knows payload (insert i S) (b'.receiveBuffer.packets.get? id) := by
  rcases ReceivePacketBuffer.handle_chunk hb hn hi addr env with ⟨hS, -⟩ |
    ⟨receiveBuffer, hhandle, hknows, -⟩
  · exact absurd hS hnew
  obtain ⟨sent, -, -, ⟨error, -, herror⟩ | hok⟩ := ack_spec id i addr env
  · exact absurd hno herror
  rw [hok] at hhandle
  refine ⟨{ b with receiveBuffer }, (Ultinet.ack id i addr env).2, ?_, hknows⟩
  obtain ⟨kind, rest, hbuf⟩ : ∃ kind rest, chunkDatagram id payload i = kind :: rest :=
    ⟨_, _, by simp [chunkDatagram, partDatagram, partHeader]; exact ⟨rfl, rfl⟩⟩
  rw [hbuf] at hhandle ⊢
  simp only [handle, hhandle]
  rfl

/-- The parts of one packet that were not received before, in any order. -/
theorem run_chunks (addr : SocketAddr) {payload : PacketId → Bytes} {S : Finset ℕ} {id : PacketId}
    (deliveries : List Delivery) (hof : ∀ d ∈ deliveries, d.1 = id)
    (hb : Knows (payload id) S (b.receiveBuffer.packets.get? id))
    (hn : chunkCount (payload id) < seqIndexBound)
    (hi : ∀ d ∈ deliveries, d.2.1 < chunkCount (payload id) ∧ d.2.1 ∉ S ∧ d.2.2.NoError)
    (hnodup : (deliveries.map fun d => d.2.1).Nodup) :
    ∃ answers b', (keyed addr).run b (deliveryEvents payload deliveries) = .ok (answers, b') ∧
      answers.filterMap (fun answer => answer.2.map Prod.fst) =
        (ReceivePacketBuffer.partOutcomes (payload id) S (deliveries.map fun d => d.2.1)).map
          fun outcome => .ok (.received outcome) := by
  induction deliveries generalizing S b with
  | nil => exact ⟨[], b, rfl, rfl⟩
  | cons d deliveries ih =>
    obtain ⟨id', i, env⟩ := d
    obtain rfl : id' = id := hof _ List.mem_cons_self
    obtain ⟨hlt, hnew, hno⟩ := hi _ List.mem_cons_self
    rw [List.map_cons, List.nodup_cons] at hnodup
    obtain ⟨b', env', hhandle, hknows⟩ := handle_new_chunk hb hn hlt hnew addr hno
    obtain ⟨answers, b'', hrest, hresults⟩ := ih (fun d hd => hof d (List.mem_cons_of_mem _ hd)) hknows
      (fun d hd => by
        obtain ⟨hlt', hnew', hno'⟩ := hi d (List.mem_cons_of_mem _ hd)
        refine ⟨hlt', fun hmem => ?_, hno'⟩
        rcases Finset.mem_insert.mp hmem with heq | hmem
        · exact hnodup.1 (heq ▸ List.mem_map_of_mem hd)
        · exact hnew' hmem) hnodup.2
    have hstep : (keyed addr).step b (.handle (chunkDatagram id' (payload id') i) env) =
        .ok (some (.ok (.received (partOutcome (payload id') S i)), env'), b') := by
      change (b.handle _ addr env).map _ = _
      rw [hhandle]
      rfl
    refine ⟨_, b'', Keyed.run_cons_of_step hstep hrest, ?_⟩
    simp only [List.filterMap_cons, Option.map_some, hresults, List.map_cons,
      ReceivePacketBuffer.partOutcomes]

/-- **Many packets are reassembled at the same time.**  The parts of any number of packets arrive, each
part once, in whatever order and however interleaved, at a receiver that does not know the packets.
Then nothing fails, and for each packet all of its parts but the last one to arrive leave it pending,
and that one completes it. -/
theorem reassembles_interleaved {payload : PacketId → Bytes} {deliveries : List Delivery}
    (hsmall : ∀ d ∈ deliveries, chunkCount (payload d.1) < seqIndexBound)
    (honce : ∀ d ∈ deliveries, ((deliveriesOf d.1 deliveries).map fun d => d.2.1).Perm
      (List.range (chunkCount (payload d.1))))
    (hnew : ∀ d ∈ deliveries, b.receiveBuffer.packets.get? d.1 = none)
    (hno : ∀ d ∈ deliveries, d.2.2.NoError) :
    ∃ answers b', (keyed addr).run b (deliveryEvents payload deliveries) = .ok (answers, b') ∧
      ∀ d ∈ deliveries, resultsOf addr d.1 answers =
        List.replicate (chunkCount (payload d.1) - 1) (.ok (.received .pending)) ++
          [.ok (.received (.reassembled (payload d.1)))] := by
  -- each packet on its own
  have hown : ∀ d ∈ deliveries, ∃ answers b',
      (keyed addr).run b ((keyed addr).eventsOf d.1 (deliveryEvents payload deliveries)) =
        .ok (answers, b') ∧
      answers.filterMap (fun answer => answer.2.map Prod.fst) =
        List.replicate (chunkCount (payload d.1) - 1) (.ok (.received .pending)) ++
          [.ok (.received (.reassembled (payload d.1)))] := by
    intro d hd
    have hperm := honce d hd
    have hknows : Knows (payload d.1) ∅ (b.receiveBuffer.packets.get? d.1) := by
      rw [hnew d hd]
      rfl
    obtain ⟨answers, b', hrun, hresults⟩ := run_chunks addr
      (deliveriesOf d.1 deliveries)
      (fun e he => of_decide_eq_true (List.mem_filter.mp he).2) hknows (hsmall d hd)
      (fun e he => by
        have hmem := hperm.mem_iff.mp (List.mem_map_of_mem he)
        exact ⟨List.mem_range.mp hmem, Finset.notMem_empty _, hno e (List.mem_filter.mp he).1⟩)
      (hperm.nodup_iff.mpr List.nodup_range)
    refine ⟨answers, b', ?_, ?_⟩
    · rw [eventsOf_deliveryEvents]
      exact hrun
    · rw [hresults, ReceivePacketBuffer.partOutcomes_perm hperm, List.map_append, List.map_replicate]
      rfl
  -- all of them together
  obtain ⟨answers, b', hrun⟩ := ((keyed_local addr).run_ok_iff b (deliveryEvents payload deliveries)).mpr
    fun id => by
      by_cases hid : ∃ d ∈ deliveries, d.1 = id
      · obtain ⟨d, hd, rfl⟩ := hid
        obtain ⟨answers, b', hrun, -⟩ := hown d hd
        exact ⟨answers, b', hrun⟩
      · have hnil : deliveriesOf id deliveries = [] :=
          List.filter_eq_nil_iff.mpr fun d hd => by simpa using fun heq => hid ⟨d, hd, heq⟩
        rw [eventsOf_deliveryEvents, hnil]
        exact ⟨[], b, rfl⟩
  refine ⟨answers, b', hrun, fun d hd => ?_⟩
  obtain ⟨answers', b'', hrun', hresults⟩ := hown d hd
  obtain ⟨t, hsame, -⟩ := (keyed_local addr).run_filter hrun (rfl : b.entry d.1 = b.entry d.1)
  rw [hsame] at hrun'
  cases hrun'
  exact hresults

/-- The only part of a packet arrives between the two parts of another one. -/
theorem reassembles_interleaved_two : ∃ answers b',
    (keyed 1).run (.new ⟨8, by decide⟩) (deliveryEvents
      (fun id => if id = .replicate 7 then [1, 2] else .replicate 600 3)
      [(.replicate 8, 1, .accepting 0), (.replicate 7, 0, .accepting 1),
        (.replicate 8, 0, .accepting 2)]) = .ok (answers, b') ∧
    resultsOf 1 (.replicate 7) answers = [.ok (.received (.reassembled [1, 2]))] ∧
    resultsOf 1 (.replicate 8) answers =
      [.ok (.received .pending), .ok (.received (.reassembled (.replicate 600 3)))] := by
  obtain ⟨answers, b', hrun, hresults⟩ := @reassembles_interleaved (.new ⟨8, by decide⟩) 1
    (fun id => if id = .replicate 7 then [1, 2] else .replicate 600 3)
    [(.replicate 8, 1, .accepting 0), (.replicate 7, 0, .accepting 1),
      (.replicate 8, 0, .accepting 2)]
    (by decide +kernel) (by decide +kernel) (fun _ _ => rfl) (by simp [Env.NoError, Env.accepting])
  refine ⟨answers, b', hrun, ?_, ?_⟩
  · exact (hresults (.replicate 7, 0, .accepting 1) (by simp)).trans (by decide +kernel)
  · exact (hresults (.replicate 8, 1, .accepting 0) (by simp)).trans (by decide +kernel)

end PacketBuffers

end Ultinet
