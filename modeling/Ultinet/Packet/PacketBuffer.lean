import Ultinet.Packet.Wire

/-!
# The buffer of one part

`PacketBuffer` of `send.rs`: 512 bytes of which the first `len` are in use, and whether the part was
acked.  That the bytes are 512 and that `len` does not exceed them is part of the type.

`PacketBuffer.ofPart` is the buffer that holds one given part and zeros behind it; the lemmas say
what each operation does to such a buffer.  `Headed` is the weaker relation that a reused buffer
keeps, whose bytes behind `len` are left over from the part before.
-/

namespace Ultinet

open Chunking

/-- The buffer of one part. -/
@[ext] structure PacketBuffer where
  acked : Bool
  len : ℕ
  data : Bytes
  length_data : data.length = packetBufferSize
  len_le : len ≤ packetBufferSize

namespace PacketBuffer

/-! ## Operations -/

/-- The bytes in use. -/
def deref (b : PacketBuffer) : Bytes :=
  b.data.take b.len

/-- Append as many bytes as there is space for, and return the others. -/
def append (b : PacketBuffer) (data : Bytes) : Bytes × PacketBuffer :=
  let space := packetBufferSize - b.len
  let len := min data.length space
  (data.drop len,
    { b with
      len := b.len + len
      data := splice b.data b.len (data.take len)
      length_data := by
        have hlen := b.len_le
        rw [length_splice, b.length_data]
        rw [b.length_data, List.length_take]
        omega
      len_le := by
        have hlen := b.len_le
        omega })

/-- Skip as many bytes as there is space for, without writing them, and return the others. -/
def skip (b : PacketBuffer) (data : Bytes) : Bytes × PacketBuffer :=
  let len := min data.length (packetBufferSize - b.len)
  (data.drop len,
    { b with
      len := b.len + len
      len_le := by
        have hlen := b.len_le
        omega })

/-- An empty buffer. -/
def zeroed : PacketBuffer where
  acked := false
  len := 0
  data := List.replicate packetBufferSize 0
  length_data := by simp
  len_le := by simp

/-- The buffer for the first part of a packet. -/
def new (id : PacketId) : PacketBuffer :=
  let result := (zeroed.append [PacketKind.part.toByte]).2
  let result := (result.append id.bytes).2
  let result := (result.append (SeqIndex.toLeBytes 0)).2
  { result with
    len := packetKindSize + packetIdSize + seqIndexSize
    len_le := by decide }

/-- A copy of the bytes in use. -/
def copy (b : PacketBuffer) : PacketBuffer where
  acked := false
  len := b.len
  data := splice (List.replicate packetBufferSize 0) 0 (b.data.take b.len)
  length_data := by
    have hlen := b.len_le
    rw [length_splice] <;> simp [b.length_data]
  len_le := b.len_le

/-- Increment the sequence index in the header. -/
def incSeqIndex (b : PacketBuffer) : Exec PacketBuffer :=
  let start := packetKindSize + packetIdSize
  match SeqIndex.fromLeBytes ((b.data.drop start).take (headerLen - start)) with
  | none => .error (.panic "called `Result::unwrap()` on an `Err` value")
  | some seqIndex => do
      let nextSeqIndex ← SeqIndex.add seqIndex 1
      return { b with
        data := splice b.data start (SeqIndex.toLeBytes nextSeqIndex)
        length_data := by
          have hfits : packetKindSize + packetIdSize + 4 ≤ packetBufferSize := by decide
          rw [length_splice, b.length_data]
          rw [b.length_data]
          exact hfits }

/-- Reuse a full buffer for the next part. -/
def next (b : PacketBuffer) : Exec PacketBuffer :=
  if b.len = packetBufferSize then
    incSeqIndex { b with len := headerLen, len_le := by decide }
  else .error (.panic "assertion `left == right` failed")

/-- Make the part the last one. -/
def markLast (b : PacketBuffer) : PacketBuffer :=
  { b with
    data := splice b.data 0 [PacketKind.lastPart.toByte]
    length_data := by
      rw [length_splice, b.length_data]
      rw [b.length_data]
      decide }

/-- A new buffer with nothing but the header of this one. -/
def copyHeader (b : PacketBuffer) : PacketBuffer where
  acked := false
  len := headerLen
  data := splice (List.replicate packetBufferSize 0) 0 (b.data.take headerLen)
  length_data := by
    have hfits : headerLen ≤ packetBufferSize := by decide
    rw [length_splice, List.length_replicate]
    simp
    omega
  len_le := by decide

/-- A new buffer for the part after this one. -/
def newNext (b : PacketBuffer) : Exec PacketBuffer :=
  incSeqIndex b.copyHeader

/-! ## Buffers that hold a part -/

/-- The buffer that holds a part, with zeros behind it.  A payload that does not fit is cut. -/
def ofPart (last : Bool) (id : PacketId) (seqIndex : ℕ) (payload : Bytes) : PacketBuffer where
  acked := false
  len := headerLen + min payload.length partPacketPayloadSize
  data := partDatagram last id seqIndex (payload.take partPacketPayloadSize) ++
    List.replicate (partPacketPayloadSize - payload.length) 0
  length_data := by
    simp [partDatagram, headerLen, partPacketPayloadSize, packetDataSize, packetBufferSize,
      packetKindSize, packetIdSize, seqIndexSize]
    omega
  len_le := by
    have hcap : headerLen + partPacketPayloadSize = packetBufferSize := by decide
    omega

/-- The buffer has the header of a part of a packet and `n` bytes of payload in use. -/
structure Headed (id : PacketId) (seqIndex n : ℕ) (b : PacketBuffer) : Prop where
  acked : b.acked = false
  len : b.len = headerLen + n
  header : b.data.take headerLen = partHeader false id seqIndex

variable {id : PacketId} {k n : ℕ} {payload : Bytes} {b : PacketBuffer}

theorem headerLen_add_partPacketPayloadSize :
    headerLen + partPacketPayloadSize = packetBufferSize := by decide

@[simp] theorem ofPart_acked (last : Bool) (id : PacketId) (k : ℕ) (payload : Bytes) :
    (ofPart last id k payload).acked = false := rfl

theorem deref_ofPart (last : Bool) (h : payload.length ≤ partPacketPayloadSize) :
    (ofPart last id k payload).deref = partDatagram last id k payload := by
  have hlen : (partDatagram last id k payload).length = headerLen + payload.length := by
    simp [partDatagram]
  simp only [ofPart, deref]
  rw [List.take_of_length_le h, Nat.min_eq_left h, ← hlen, List.take_left]

theorem headed_ofPart (id : PacketId) (k : ℕ) (h : payload.length ≤ partPacketPayloadSize) :
    Headed id k payload.length (ofPart false id k payload) where
  acked := rfl
  len := by simp [ofPart, Nat.min_eq_left h]
  header := by
    simp only [ofPart, partDatagram, List.append_assoc]
    rw [← length_partHeader false id k, List.take_left]

/-- A copy is determined by the bytes in use. -/
theorem copy_of_deref {last : Bool} (hlen : b.len = headerLen + payload.length)
    (hderef : b.deref = partDatagram last id k payload)
    (h : payload.length ≤ partPacketPayloadSize) : b.copy = ofPart last id k payload := by
  have hcap := headerLen_add_partPacketPayloadSize
  have hlength : (partDatagram last id k payload).length = headerLen + payload.length := by
    simp [partDatagram]
  have hbytes : b.data.take b.len = partDatagram last id k payload := hderef
  refine PacketBuffer.ext rfl ?_ ?_
  · simp [copy, ofPart, hlen, Nat.min_eq_left h]
  · simp only [copy, ofPart, hbytes, splice, hlength, List.take_zero, List.nil_append,
      Nat.zero_add, List.drop_replicate, List.take_of_length_le h]
    rw [show packetBufferSize - (headerLen + payload.length) =
      partPacketPayloadSize - payload.length by omega]

/-! ## What the operations do -/

/-- Appending takes as many bytes as the capacity allows. -/
theorem append_fst (hlen : b.len = headerLen + n) (data : Bytes) :
    (b.append data).1 = data.drop (partPacketPayloadSize - n) := by
  have hcap := headerLen_add_partPacketPayloadSize
  simp only [append, hlen]
  rw [show packetBufferSize - (headerLen + n) = partPacketPayloadSize - n by omega]
  by_cases hle : data.length ≤ partPacketPayloadSize - n
  · rw [Nat.min_eq_left hle, List.drop_length, List.drop_eq_nil_of_le hle]
  · rw [Nat.min_eq_right (by omega)]

theorem skip_fst (hlen : b.len = headerLen + n) (data : Bytes) :
    (b.skip data).1 = data.drop (partPacketPayloadSize - n) :=
  append_fst hlen data

theorem append_headed (hb : Headed id k n b) (data : Bytes) :
    Headed id k (n + min data.length (partPacketPayloadSize - n)) (b.append data).2 where
  acked := hb.acked
  len := by
    have hcap := headerLen_add_partPacketPayloadSize
    simp only [append, hb.len]
    omega
  header := by
    have hle := hb.len
    have hlen := b.length_data
    have hbuf := b.len_le
    rw [← hb.header]
    simp only [append, splice, List.append_assoc]
    rw [List.take_append_of_le_length (by simp; omega), List.take_take, Nat.min_eq_left (by omega)]

theorem skip_headed (hb : Headed id k n b) (data : Bytes) :
    Headed id k (n + min data.length (partPacketPayloadSize - n)) (b.skip data).2 where
  acked := hb.acked
  len := by
    have hcap := headerLen_add_partPacketPayloadSize
    simp only [skip, hb.len]
    omega
  header := hb.header

/-- Appending adds the bytes taken to the bytes in use. -/
theorem append_deref (b : PacketBuffer) (data : Bytes) :
    (b.append data).2.deref = b.deref ++ data.take (packetBufferSize - b.len) := by
  have hlen := b.length_data
  have hbuf := b.len_le
  have htake : data.take (min data.length (packetBufferSize - b.len)) =
      data.take (packetBufferSize - b.len) := by
    rw [Nat.min_comm, List.take_eq_take_iff]
    omega
  simp only [append, deref, splice, htake]
  rw [List.take_append_of_le_length (by simp; omega), List.take_of_length_le (by simp; omega)]

theorem append_ofPart (id : PacketId) (k : ℕ) (h : payload.length ≤ partPacketPayloadSize)
    (data : Bytes) :
    (ofPart false id k payload).append data =
      (data.drop (partPacketPayloadSize - payload.length),
        ofPart false id k (payload ++ data.take (partPacketPayloadSize - payload.length))) := by
  have hheaded := headed_ofPart id k h
  refine Prod.ext (append_fst hheaded.len data) (PacketBuffer.ext rfl ?_ ?_)
  · have hlen := (append_headed hheaded data).len
    simp only [ofPart, List.length_append, List.length_take] at hlen ⊢
    omega
  · have hcap := headerLen_add_partPacketPayloadSize
    have hlen : headerLen + min payload.length partPacketPayloadSize =
        (partDatagram false id k payload).length := by
      simp [partDatagram, Nat.min_eq_left h]
    have hspace : packetBufferSize - (partDatagram false id k payload).length =
        partPacketPayloadSize - payload.length := by
      rw [← hlen]
      omega
    have htake : data.take (min data.length (partPacketPayloadSize - payload.length)) =
        data.take (partPacketPayloadSize - payload.length) := by
      rw [Nat.min_comm, List.take_eq_take_iff]
      omega
    simp only [append, ofPart, splice, hlen, hspace, htake, List.take_of_length_le h,
      List.take_left, List.drop_append, Nat.add_sub_cancel_left, List.drop_replicate]
    rw [List.drop_eq_nil_of_le (by omega), List.nil_append,
      List.take_of_length_le (l := payload ++ _) (by simp; omega)]
    simp only [partDatagram, List.append_assoc, List.length_append, List.length_take]
    congr 4
    omega

/-- Incrementing the sequence index of a header. -/
theorem incSeqIndex_headed (hb : Headed id k n b) (hk : k + 1 < seqIndexBound) :
    ∃ b', b.incSeqIndex = .ok b' ∧ Headed id (k + 1) n b' ∧
      b'.data = partHeader false id (k + 1) ++ b.data.drop headerLen := by
  have hid := id.length_bytes
  have hsplit : b.data = partHeader false id k ++ b.data.drop headerLen := by
    rw [← hb.header, List.take_append_drop]
  have hindex : (b.data.drop (packetKindSize + packetIdSize)).take
      (headerLen - (packetKindSize + packetIdSize)) = SeqIndex.toLeBytes k := by
    rw [hsplit]
    simp [partHeader, packetKindSize, packetIdSize, headerLen, seqIndexSize, hid,
      List.take_append]
  have hdata : splice b.data (packetKindSize + packetIdSize) (SeqIndex.toLeBytes (k + 1)) =
      partHeader false id (k + 1) ++ b.data.drop headerLen := by
    conv_lhs => rw [hsplit]
    exact splice_append (by simp [packetKindSize, packetIdSize, hid]) rfl
  simp only [incSeqIndex, hindex, SeqIndex.fromLeBytes_toLeBytes (show k < seqIndexBound by omega),
    SeqIndex.add_eq hk]
  refine ⟨_, rfl, ⟨hb.acked, hb.len, ?_⟩, hdata⟩
  simp only [hdata]
  rw [← length_partHeader false id (k + 1), List.take_left]

/-- Appending to a buffer that holds a prefix and zeros behind it. -/
theorem append_zeros (pre data : Bytes) {m : ℕ} (hlen : b.len = pre.length)
    (hdata : b.data = pre ++ List.replicate m 0) (hfit : data.length ≤ m) :
    (b.append data).2.len = (pre ++ data).length ∧
      (b.append data).2.data = pre ++ data ++ List.replicate (m - data.length) 0 := by
  have hsize : packetBufferSize = pre.length + m := by
    rw [← b.length_data, hdata]
    simp
  have hspace : min data.length (packetBufferSize - b.len) = data.length := by omega
  have hzeros : List.replicate m (0 : UInt8) =
      List.replicate data.length 0 ++ List.replicate (m - data.length) 0 := by
    rw [List.replicate_append_replicate]
    congr 1
    omega
  simp only [append, hspace, List.take_length]
  refine ⟨by simp [hlen], ?_⟩
  rw [hdata, hzeros, ← List.append_assoc]
  exact splice_append hlen (by simp)

theorem new_eq (id : PacketId) : new id = ofPart false id 0 [] := by
  have hid := id.length_bytes
  obtain ⟨hlen1, hdata1⟩ := append_zeros (b := zeroed) (m := packetBufferSize) []
    [PacketKind.part.toByte] rfl rfl (by decide)
  obtain ⟨hlen2, hdata2⟩ := append_zeros _ id.bytes hlen1 hdata1 (by rw [hid]; decide)
  obtain ⟨-, hdata3⟩ := append_zeros _ (SeqIndex.toLeBytes 0) hlen2 hdata2
    (by rw [hid]; decide)
  refine PacketBuffer.ext rfl rfl (hdata3.trans ?_)
  simp only [ofPart, partDatagram, partHeader, hid, List.nil_append, List.take_nil,
    List.append_nil, List.length_nil, List.length_singleton, SeqIndex.length_toLeBytes]
  congr 1

/-- A header alone, with zeros behind it. -/
theorem headed_of_header {b : PacketBuffer} (hacked : b.acked = false) (hlen : b.len = headerLen)
    (hdata : b.data = partHeader false id k ++
      List.replicate (packetBufferSize - headerLen) 0) : Headed id k 0 b where
  acked := hacked
  len := hlen
  header := by
    rw [hdata, ← length_partHeader false id k, List.take_left]

theorem newNext_ofPart (id : PacketId) (h : payload.length ≤ partPacketPayloadSize)
    (hk : k + 1 < seqIndexBound) :
    (ofPart false id k payload).newNext = .ok (ofPart false id (k + 1) []) := by
  have hheader := (headed_ofPart id k h).header
  have hdata : (ofPart false id k payload).copyHeader.data =
      partHeader false id k ++ List.replicate (packetBufferSize - headerLen) 0 := by
    simp only [copyHeader, hheader, splice, List.take_zero, List.nil_append, length_partHeader, Nat.zero_add,
      List.drop_replicate]
  obtain ⟨b', hb', hheaded', hdata'⟩ := incSeqIndex_headed (headed_of_header rfl rfl hdata) hk
  rw [newNext, hb', Except.ok.injEq]
  refine PacketBuffer.ext hheaded'.acked ?_ ?_
  · simp [hheaded'.len, ofPart]
  · rw [hdata', hdata, List.drop_append, List.drop_eq_nil_of_le (by simp), List.nil_append,
      length_partHeader, Nat.sub_self, List.drop_zero]
    simp only [ofPart, partDatagram, List.take_nil, List.append_nil, List.length_nil]
    congr 1

/-- A full buffer is reused for the next part. -/
theorem next_headed (hb : Headed id k partPacketPayloadSize b) (hk : k + 1 < seqIndexBound) :
    ∃ b', b.next = .ok b' ∧ Headed id (k + 1) 0 b' := by
  have hfull : b.len = packetBufferSize := by
    rw [hb.len, headerLen_add_partPacketPayloadSize]
  have hheaded : Headed id k 0 { b with len := headerLen, len_le := by decide } :=
    ⟨hb.acked, rfl, hb.header⟩
  obtain ⟨b', hb', hheaded', -⟩ := incSeqIndex_headed hheaded hk
  exact ⟨b', by rw [next, if_pos hfull, hb'], hheaded'⟩

theorem markLast_ofPart (id : PacketId) (k : ℕ) (payload : Bytes) :
    (ofPart false id k payload).markLast = ofPart true id k payload := by
  refine PacketBuffer.ext rfl rfl ?_
  simp [markLast, ofPart, splice, partDatagram, partHeader]

/-- Marking a reused buffer as the last part. -/
theorem markLast_deref (hlen : b.len = headerLen + payload.length)
    (hderef : b.deref = partDatagram false id k payload) :
    b.markLast.deref = partDatagram true id k payload := by
  have hlength : ∀ last, (partDatagram last id k payload).length = b.len := by
    intro last
    simp [partDatagram, hlen]
  have hbytes : b.data.take b.len = partDatagram false id k payload := hderef
  have hsplit : b.data = [PacketKind.part.toByte] ++
      (id.bytes ++ SeqIndex.toLeBytes k ++ payload ++ b.data.drop b.len) := by
    conv_lhs => rw [← List.take_append_drop b.len b.data, hbytes]
    simp [partDatagram, partHeader]
  have hmarked : splice b.data 0 [PacketKind.lastPart.toByte] =
      partDatagram true id k payload ++ b.data.drop b.len := by
    conv_lhs => rw [hsplit]
    refine (splice_append (List.length_nil (α := UInt8)).symm rfl).trans ?_
    simp [partDatagram, partHeader]
  simp only [markLast, deref, hmarked]
  rw [← hlength true, List.take_left]

end PacketBuffer

end Ultinet
