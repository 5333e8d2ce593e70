import Ultinet.Packet.Reassembly

/-!
# Positions of the serializers

What is written out of line (a string, a vector) is referred to by its distance: rkyv asks the
serializer for its position right before the object is written and right before the object that
refers to it is written, and stores the difference in the latter.  However objects are nested, what
is between the two moments is a sequence of writes, so that it is enough to look at two moments.

`follow_eq_iff` is the general fact: a reference leads to the bytes that were meant if and only if
the stored offset is the number of bytes written in between.  Both serializers always say that they
are at position 0, so that this is the case if and only if nothing was written (`offset_true_iff`).
-/

namespace Ultinet

/-! ## Back references -/

/-- What a reference that is stored at a position leads to: what is `offset` bytes before it. -/
def follow (payload : Bytes) (referrer : ℕ) (offset : ℤ) : Bytes :=
  payload.drop (referrer - offset).toNat

/-- **Back references.**  A reference leads back to the bytes that follow a moment if and only if its
offset is the number of bytes since then. -/
theorem follow_eq_iff {before between after : Bytes} {offset : ℤ} (hle : 0 ≤ offset)
    (hge : offset ≤ (before ++ between).length) :
    follow (before ++ between ++ after) (before ++ between).length offset = between ++ after ↔
      offset = between.length := by
  rw [List.length_append] at hge
  constructor
  · intro h
    have hlength := congrArg List.length h
    simp only [follow, List.length_drop, List.length_append] at hlength
    omega
  · rintro rfl
    have hpos : (((before ++ between).length : ℤ) - between.length).toNat = before.length := by
      rw [List.length_append]
      omega
    rw [follow, hpos, List.append_assoc, List.drop_left]

/-! ## What the serializers tell -/

/-- The offset that is stored for an object that is about to be written after the writes `before`,
in an object that is about to be written after the writes `before` and `between`. -/
inductive StoredOffset (before between : List Bytes) : ℤ → Prop
  | vec {s s₁ s₂ : VecPacketSerializer} (hobject : s.serializeValue before = .ok (.ok s₁))
      (hreferrer : s₁.serializeValue between = .ok (.ok s₂)) :
      StoredOffset before between (s₂.pos - s₁.pos)
  | channel {s s₁ s₂ : ChannelPacketSerializer} (hobject : s.serializeValue before = (.ok (), s₁))
      (hreferrer : s₁.serializeValue between = (.ok (), s₂)) :
      StoredOffset before between (s₂.pos - s₁.pos)

/-- A reference always claims that it leads to itself. -/
theorem StoredOffset.eq_zero {before between : List Bytes} {offset : ℤ}
    (h : StoredOffset before between offset) : offset = 0 := by
  cases h with
  | vec => rfl
  | channel => rfl

/-- `payload` is what a receiver that does not know a packet gets from its parts, in some order. -/
def SerializedPacket.Delivers (packet : SerializedPacket) (id : PacketId) (payload : Bytes) :
    Prop :=
  ∃ (b b' : ReceivePacketBuffer) (addr : SocketAddr) (deliveries : List (Bytes × Env))
    (results : List (Except HandlePacketError ReceivedPacketHandling)),
    b.packets.get? id = none ∧
    (deliveries.map Prod.fst).Perm (packet.buffers.map PacketBuffer.deref) ∧
    (∀ d ∈ deliveries, d.2.NoError) ∧
    b.handleAll addr deliveries = .ok (results, b') ∧
    .ok (.ack (.reassembled payload)) ∈ results

theorem SerializedPacket.Delivers.eq {packet : SerializedPacket} {id : PacketId}
    {payload : Bytes} {threshold : ℕ} {value : List Bytes} (h : packet.Delivers id payload)
    (hpacket : serializePacket id threshold value = .ok packet)
    (hn : chunkCount value.flatten < seqIndexBound) : payload = value.flatten := by
  obtain ⟨b, b', addr, deliveries, results, hunknown, horder, hacks, hall, hmem⟩ := h
  rw [buffers_serializePacket hn hpacket, deref_chunkBuffers] at horder
  obtain ⟨b'', hresults⟩ :=
    ReceivePacketBuffer.handleAll_datagrams hn hunknown addr deliveries horder hacks
  rw [hall] at hresults
  cases hresults
  rcases List.mem_append.mp hmem with hpending | hlast
  · have heq := List.eq_of_mem_replicate hpending
    simp at heq
  · have heq := List.mem_singleton.mp hlast
    simpa using heq

/-- There is such a receiver: it gets the parts in order, and its socket accepts the acks. -/
theorem SerializedPacket.delivers {packet : SerializedPacket} {id : PacketId} {threshold : ℕ}
    {value : List Bytes} (hpacket : serializePacket id threshold value = .ok packet)
    (hn : chunkCount value.flatten < seqIndexBound) : packet.Delivers id value.flatten := by
  set deliveries := packet.buffers.map fun b => (b.deref, Env.accepting 0) with hdeliveries
  have hfst : deliveries.map Prod.fst = packet.buffers.map PacketBuffer.deref := by
    rw [hdeliveries, List.map_map]
    rfl
  have horder : (deliveries.map Prod.fst).Perm
      ((List.range (chunkCount value.flatten)).map (chunkDatagram id value.flatten)) := by
    rw [hfst, buffers_serializePacket hn hpacket, deref_chunkBuffers]
  have hacks : ∀ d ∈ deliveries, d.2.NoError := by
    intro d hd
    obtain ⟨b, -, rfl⟩ := List.mem_map.mp hd
    exact Env.accepting_noError 0 7
  obtain ⟨b', hall⟩ :=
    ReceivePacketBuffer.handleAll_datagrams (b := .new) hn rfl 5 deliveries horder hacks
  exact ⟨.new, b', 5, deliveries, _, rfl, hfst ▸ List.Perm.refl _, hacks, hall, by simp⟩

/-- **Positions.**  The difference of the positions at two moments is the number of bytes that are
written between them if and only if there are none, for both serializers, from any state of theirs
and for any writes.  So a back reference leads to the bytes it was meant for, in the payload that is
reassembled from the parts of the packet, if and only if nothing was written between the two objects,
not even the one that is referred to. -/
theorem offset_true_iff {before between : List Bytes} {offset : ℤ}
    (hoffset : StoredOffset before between offset) :
    (offset = between.flatten.length ↔ between.flatten = []) ∧
      ∀ (id : PacketId) (threshold : ℕ) (after : List Bytes) (packet : SerializedPacket)
        (payload : Bytes), serializePacket id threshold (before ++ between ++ after) = .ok packet →
        chunkCount (before ++ between ++ after).flatten < seqIndexBound →
        packet.Delivers id payload →
        (follow payload (before ++ between).flatten.length offset = (between ++ after).flatten ↔
          between.flatten = []) := by
  have hzero := hoffset.eq_zero
  subst hzero
  have hlength : (0 : ℤ) = between.flatten.length ↔ between.flatten = [] := by
    rw [← List.length_eq_zero_iff]
    omega
  refine ⟨hlength, ?_⟩
  intro id threshold after packet payload hpacket hn hdelivers
  have hpayload := hdelivers.eq hpacket hn
  subst hpayload
  rw [← hlength]
  simp only [List.flatten_append]
  exact follow_eq_iff le_rfl (Int.natCast_nonneg _)

/-- The vector serializer at the start of a packet, and after a write of two bytes. -/
theorem storedOffset_hello : StoredOffset [] [[104, 105]] 0 :=
  .vec (s := { backgroundSerializationThreshold := 1, buf := [PacketBuffer.new (.replicate 7)] })
    rfl rfl

/-- An object of two bytes is referred to as if it was the referring object itself, also in the payload
that a receiver gets. -/
theorem offset_true_iff_hello :
    StoredOffset [] [[104, 105]] 0 ∧
      ((0 : ℤ) = ([[104, 105]] : List Bytes).flatten.length ↔
        ([[104, 105]] : List Bytes).flatten = []) ∧
      ∃ packet payload, serializePacket (.replicate 7) 4 [[104, 105], [0, 0, 0, 2]] = .ok packet ∧
        packet.Delivers (.replicate 7) payload ∧
        (follow payload 2 0 = [104, 105, 0, 0, 0, 2] ↔
          ([[104, 105]] : List Bytes).flatten = []) := by
  have hn : chunkCount ([[104, 105], [0, 0, 0, 2]] : List Bytes).flatten < seqIndexBound := by
    decide
  have hpacket : serializePacket (.replicate 7) 4 [[104, 105], [0, 0, 0, 2]] = .ok _ :=
    serializePacket_eq hn
  have hdelivers := SerializedPacket.delivers hpacket hn
  obtain ⟨hoffset, hfollow⟩ := offset_true_iff storedOffset_hello
  exact ⟨storedOffset_hello, hoffset, _, _, hpacket, hdelivers,
    hfollow (.replicate 7) 4 [[0, 0, 0, 2]] _ _ hpacket hn hdelivers⟩

/-- The position does not count what is written. -/
theorem offset_wrong :
    ¬∀ (before between : List Bytes) (offset : ℤ), StoredOffset before between offset →
      offset = between.flatten.length := by
  intro h
  exact absurd (h _ _ _ storedOffset_hello) (by decide)

end Ultinet
