import Ultinet.Packet.Dispatch

/-!
# What serializers build

Every buffer of a serialized packet was built by the operations of `PacketBuffer`, whatever the value
is and however long it is (`serializePacket_built`).  So it has the header of a part and it is not
marked as acked.
-/

namespace Ultinet

open PacketBuffer

variable {id : PacketId}

/-- The buffers are parts, none of which is the last one. -/
def AllOpen (id : PacketId) (bufs : List PacketBuffer) : Prop :=
  ∀ b ∈ bufs, ∃ k, Built id false k b

/-- The buffers are parts. -/
def AllBuilt (id : PacketId) (bufs : List PacketBuffer) : Prop :=
  ∀ b ∈ bufs, ∃ last k, Built id last k b

/-- Parts that are not the last one are parts. -/
theorem AllOpen.allBuilt {bufs : List PacketBuffer} (h : AllOpen id bufs) : AllBuilt id bufs := by
  intro b hb
  obtain ⟨k, hbuilt⟩ := h b hb
  exact ⟨false, k, hbuilt⟩

/-- Another part that is not the last one. -/
theorem AllOpen.append {bufs : List PacketBuffer} {b : PacketBuffer} {k : ℕ} (h : AllOpen id bufs)
    (hb : Built id false k b) : AllOpen id (bufs ++ [b]) := by
  intro b' hb'
  rcases List.mem_append.mp hb' with hb' | hb'
  · exact h b' hb'
  · rw [List.mem_singleton.mp hb']
    exact ⟨k, hb⟩

/-- Another part, which may be the last one. -/
theorem AllBuilt.append {bufs : List PacketBuffer} {b : PacketBuffer} {last : Bool} {k : ℕ}
    (h : AllBuilt id bufs) (hb : Built id last k b) : AllBuilt id (bufs ++ [b]) := by
  intro b' hb'
  rcases List.mem_append.mp hb' with hb' | hb'
  · exact h b' hb'
  · rw [List.mem_singleton.mp hb']
    exact ⟨last, k, hb⟩

/-- What is left without the last buffer. -/
theorem AllOpen.dropLast {bufs : List PacketBuffer} (h : AllOpen id bufs) :
    AllOpen id bufs.dropLast :=
  fun b hb => h b (List.dropLast_subset _ hb)

namespace VecPacketSerializer

/-- The buffers of a serializer, or the ones that it leaves behind when it fails. -/
def buffers : Except (List PacketBuffer) VecPacketSerializer → List PacketBuffer
  | .error bufs => bufs
  | .ok s => s.buf

/-- Writing fills and adds parts that are not the last one.  The induction is on the loop. -/
theorem writeLoop_built (fuel : ℕ) {s : VecPacketSerializer} {bytes : Bytes}
    {result : Except (List PacketBuffer) VecPacketSerializer} (hs : AllOpen id s.buf)
    (h : writeLoop fuel s bytes = .ok result) :
    AllOpen id (buffers result) := by
  induction fuel generalizing s bytes with
  | zero => cases h
  | succ fuel ih =>
    rw [writeLoop] at h
    split_ifs at h with hempty
    · cases h
      exact hs
    · dsimp only at h
      split at h
      · cases h
      · rename_i last hlast
        obtain ⟨k, hbuilt⟩ := hs last (List.mem_of_getLast? hlast)
        have hwritten : AllOpen id (s.buf.dropLast ++ [(last.append bytes).2]) :=
          hs.dropLast.append (hbuilt.append bytes)
        split_ifs at h with hfull hlimit
        · cases h
          exact hwritten
        · cases hnext : (last.append bytes).2.newNext with
          | error abort => simp [hnext, bind, Except.bind] at h
          | ok packet =>
            simp only [hnext, bind, Except.bind] at h
            exact ih (hwritten.append (.newNext (hbuilt.append bytes) hnext)) h
        · exact ih hwritten h

/-- So do all the writes of a packet. -/
theorem serializeValue_built (value : List Bytes) {s : VecPacketSerializer}
    {result : Except (List PacketBuffer) VecPacketSerializer} (hs : AllOpen id s.buf)
    (h : s.serializeValue value = .ok result) :
    AllOpen id (buffers result) := by
  induction value generalizing s with
  | nil =>
    cases h
    exact hs
  | cons bytes value ih =>
    rw [serializeValue] at h
    cases hwrite : s.write bytes with
    | error abort => simp [hwrite, bind, Except.bind] at h
    | ok written =>
      have hwritten := writeLoop_built _ hs hwrite
      simp only [hwrite, bind, Except.bind, pure, Except.pure] at h
      cases written with
      | error bufs =>
        cases h
        exact hwritten
      | ok s' => exact ih hwritten h

end VecPacketSerializer

namespace ChannelPacketSerializer

/-- The buffer that is written to and the ones that were sent are parts. -/
structure WellBuilt (id : PacketId) (s : ChannelPacketSerializer) : Prop where
  buf : ∃ k, Built id false k s.buf
  tx : AllBuilt id s.tx

/-- Writing to the channel sends parts that are not the last one. -/
theorem writeLoop_built (fuel : ℕ) {s : ChannelPacketSerializer} (bytes : Bytes)
    (hs : s.WellBuilt id) : (writeLoop fuel s bytes).2.WellBuilt id := by
  induction fuel generalizing s bytes with
  | zero => exact hs
  | succ fuel ih =>
    rw [writeLoop]
    by_cases hempty : bytes.isEmpty = true
    · rw [if_pos hempty]
      exact hs
    · rw [if_neg hempty]
      obtain ⟨k, hbuilt⟩ := hs.buf
      -- the buffer is written to, or bytes are skipped in it
      have hwritten : Built id false k
          (if s.skip > 0 then s.buf.skip bytes else s.buf.append bytes).2 := by
        split_ifs
        · exact hbuilt.skip bytes
        · exact hbuilt.append bytes
      generalize (if s.skip > 0 then s.buf.skip bytes else s.buf.append bytes) = written at hwritten ⊢
      obtain ⟨rest, buf⟩ := written
      dsimp only at hwritten ⊢
      by_cases hfull : rest.length = bytes.length
      · rw [if_pos hfull]
        by_cases hskip : s.skip > 0
        · rw [if_pos hskip]
          split
          · exact ⟨⟨k, hwritten⟩, hs.tx⟩
          · rename_i next hnext
            exact ih _ ⟨⟨k + 1, .next hwritten hnext⟩, hs.tx⟩
        · rw [if_neg hskip]
          split
          · exact ⟨⟨k, hwritten⟩, hs.tx.append (.copy hwritten)⟩
          · rename_i next hnext
            exact ih _ ⟨⟨k + 1, .next hwritten hnext⟩, hs.tx.append (.copy hwritten)⟩
      · rw [if_neg hfull]
        exact ih _ ⟨⟨k, hwritten⟩, hs.tx⟩

/-- So do all the writes of a packet that is sent through the channel. -/
theorem serializeValue_built (value : List Bytes) {s : ChannelPacketSerializer}
    (hs : s.WellBuilt id) : (s.serializeValue value).2.WellBuilt id := by
  induction value generalizing s with
  | nil => exact hs
  | cons bytes value ih =>
    have hwrite : (s.write bytes).2.WellBuilt id := writeLoop_built _ bytes hs
    rw [serializeValue]
    split <;> rename_i heq <;> rw [heq] at hwrite
    · exact hwrite
    · exact ih hwrite

end ChannelPacketSerializer

/-- The first attempt: all parts, the last one of which is marked, or the parts up to the threshold. -/
theorem serializeInMemory_built {threshold : ℕ} {value : List Bytes}
    {result : Except (List PacketBuffer) (List PacketBuffer)}
    (h : serializeInMemory id threshold value = .ok result) :
    ∀ bufs, result = .error bufs ∨ result = .ok bufs → AllBuilt id bufs := by
  unfold serializeInMemory at h
  split_ifs at h
  · cases h
    rintro bufs (⟨⟨⟩⟩ | ⟨⟨⟩⟩) b hb
    cases hb
  · have hnew : AllOpen id [PacketBuffer.new id] := by
      intro b hb
      rw [List.mem_singleton.mp hb]
      exact ⟨0, .new⟩
    cases hvalue : VecPacketSerializer.serializeValue
      { backgroundSerializationThreshold := threshold, buf := [PacketBuffer.new id] } value with
    | error abort => simp [hvalue, bind, Except.bind] at h
    | ok written =>
      have hwritten := VecPacketSerializer.serializeValue_built value hnew hvalue
      simp only [hvalue, bind, Except.bind, pure, Except.pure] at h
      cases written with
      | error bufs =>
        cases h
        rintro bufs (⟨⟨⟩⟩ | ⟨⟨⟩⟩)
        exact hwritten.allBuilt
      | ok s =>
        dsimp only at h
        split at h
        · cases h
        · rename_i last hlast
          cases h
          rintro bufs (⟨⟨⟩⟩ | ⟨⟨⟩⟩)
          obtain ⟨k, hbuilt⟩ := hwritten last (List.mem_of_getLast? hlast)
          exact hwritten.dropLast.allBuilt.append (.markLast hbuilt)

/-- **Every buffer of a serialized packet is a part.** -/
theorem serializePacket_built {threshold : ℕ} {value : List Bytes} {serialized : SerializedPacket}
    (h : serializePacket id threshold value = .ok serialized) : AllBuilt id serialized.buffers := by
  unfold serializePacket at h
  cases hfirst : serializeInMemory id threshold value with
  | error abort => simp [hfirst, bind, Except.bind] at h
  | ok result =>
    have hbuilt := serializeInMemory_built hfirst
    simp only [hfirst, bind, Except.bind, pure, Except.pure] at h
    cases result with
    | ok packets =>
      cases h
      exact hbuilt packets (Or.inr rfl)
    | error alreadySerialized =>
      cases h
      obtain ⟨⟨k, hbuf⟩, htx⟩ := ChannelPacketSerializer.serializeValue_built value
        (s := { skip := alreadySerialized.length, buf := .new id, tx := alreadySerialized })
        ⟨⟨0, .new⟩, hbuilt alreadySerialized (Or.inl rfl)⟩
      unfold SerializedPacket.buffers serializeThread
      dsimp only
      split <;> rename_i heq <;> rw [heq] at hbuf htx
      · exact htx
      · split_ifs
        · exact htx.append (.copy (.markLast hbuf))
        · exact htx

/-- A part is not marked as acked. -/
theorem AllBuilt.not_acked {bufs : List PacketBuffer} (h : AllBuilt id bufs) {b : PacketBuffer}
    (hb : b ∈ bufs) : b.acked = false := by
  obtain ⟨last, k, hbuilt⟩ := h b hb
  exact hbuilt.hasHeader.acked

end Ultinet
