import Ultinet.Packet.Serialize

/-!
# Both ways of serializing give the canonical parts

`chunkBuffers id payload` are the parts that a payload has by itself, without any serializer.  The
main result `serializePacket_eq` says that `serializePacket` gives exactly these, as a vector or as
what comes out of the channel, for every threshold and for every way the payload is split into
writes.

Both loops keep the number of parts begun and the bytes written so far in step (`EndsAt`).  The
passes a loop needs are counted along: each pass writes something, or begins the next part and is
followed by one that writes something.
-/

namespace Ultinet

open Chunking

/-! ## The canonical parts of a payload -/

/-- How many parts a payload takes. -/
def chunkCount (payload : Bytes) : ℕ :=
  count partPacketPayloadSize payload

/-- The payload of one part. -/
def chunkPayload (payload : Bytes) (i : ℕ) : Bytes :=
  chunk partPacketPayloadSize payload i

/-- The datagram of one part. -/
def chunkDatagram (id : PacketId) (payload : Bytes) (i : ℕ) : Bytes :=
  partDatagram (i + 1 = chunkCount payload) id i (chunkPayload payload i)

/-- The buffer of one part. -/
def chunkBuffer (id : PacketId) (payload : Bytes) (i : ℕ) : PacketBuffer :=
  .ofPart (i + 1 = chunkCount payload) id i (chunkPayload payload i)

/-- The parts of a payload. -/
def chunkBuffers (id : PacketId) (payload : Bytes) : List PacketBuffer :=
  (List.range (chunkCount payload)).map (chunkBuffer id payload)

theorem chunkCount_pos (payload : Bytes) : 0 < chunkCount payload :=
  count_pos _ _

theorem length_chunkPayload_le (payload : Bytes) (i : ℕ) :
    (chunkPayload payload i).length ≤ partPacketPayloadSize :=
  length_chunk_le _ _ _

@[simp] theorem length_chunkBuffers (id : PacketId) (payload : Bytes) :
    (chunkBuffers id payload).length = chunkCount payload := by
  simp [chunkBuffers]

theorem getElem?_chunkBuffers {id : PacketId} {payload : Bytes} {i : ℕ}
    (hi : i < chunkCount payload) :
    (chunkBuffers id payload)[i]? = some (chunkBuffer id payload i) := by
  simp [chunkBuffers, hi]

@[simp] theorem deref_chunkBuffer (id : PacketId) (payload : Bytes) (i : ℕ) :
    (chunkBuffer id payload i).deref = chunkDatagram id payload i :=
  PacketBuffer.deref_ofPart _ (length_chunkPayload_le _ _)

@[simp] theorem acked_chunkBuffer (id : PacketId) (payload : Bytes) (i : ℕ) :
    (chunkBuffer id payload i).acked = false := rfl

/-- The payloads of the parts, one after the other, are the payload. -/
theorem flatten_chunkPayloads (payload : Bytes) :
    ((List.range (chunkCount payload)).map (chunkPayload payload)).flatten = payload :=
  flatten_chunks partPacketPayloadSize_pos payload

/-- The payload of the only part is the whole payload. -/
theorem chunkPayload_zero {payload : Bytes} (h : chunkCount payload = 1) :
    chunkPayload payload 0 = payload := by
  have hle := (count_eq_one_iff partPacketPayloadSize_pos).mp h
  simpa [chunkPayload, chunk] using List.take_of_length_le hle

/-! ## Parts that are being written -/

/-- The first `m` parts of what was written so far, none of them marked as the last. -/
def openBuffers (id : PacketId) (written : Bytes) (m : ℕ) : List PacketBuffer :=
  (List.range m).map fun i => .ofPart false id i (chunk partPacketPayloadSize written i)

/-- What was written ends in part `k`, which is the first one or holds something. -/
structure EndsAt (written : Bytes) (k : ℕ) : Prop where
  lower : partPacketPayloadSize * k ≤ written.length
  upper : written.length ≤ partPacketPayloadSize * (k + 1)
  last : k = 0 ∨ partPacketPayloadSize * k < written.length

theorem endsAt_nil : EndsAt [] 0 where
  lower := by simp
  upper := by simp
  last := Or.inl rfl

theorem EndsAt.chunkCount_eq {written : Bytes} {k : ℕ} (h : EndsAt written k) :
    chunkCount written = k + 1 :=
  count_eq_of_bounds partPacketPayloadSize_pos h.upper h.last

section Open

variable {id : PacketId} {written : Bytes} {k m : ℕ}

@[simp] theorem length_openBuffers (id : PacketId) (written : Bytes) (m : ℕ) :
    (openBuffers id written m).length = m := by
  simp [openBuffers]

theorem openBuffers_succ (id : PacketId) (written : Bytes) (k : ℕ) :
    openBuffers id written (k + 1) = openBuffers id written k ++
      [.ofPart false id k (chunk partPacketPayloadSize written k)] := by
  simp [openBuffers, List.range_succ]

/-- Full parts do not change. -/
theorem openBuffers_append (more : Bytes) (h : partPacketPayloadSize * m ≤ written.length) :
    openBuffers id (written ++ more) m = openBuffers id written m := by
  unfold openBuffers
  refine List.map_congr_left fun i hi => ?_
  have him : i + 1 ≤ m := List.mem_range.mp hi
  rw [chunk_append_of_le more ((Nat.mul_le_mul_left _ him).trans h)]

/-- A part that is begun holds nothing yet. -/
theorem chunk_eq_nil (h : written.length ≤ partPacketPayloadSize * k) :
    chunk partPacketPayloadSize written k = [] := by
  simp [chunk, List.drop_eq_nil_of_le h]

/-- Writing to the part that is not full. -/
theorem chunk_append (more : Bytes) (hlower : partPacketPayloadSize * k ≤ written.length)
    (hupper : (written ++ more).length ≤ partPacketPayloadSize * (k + 1)) :
    chunk partPacketPayloadSize (written ++ more) k =
      chunk partPacketPayloadSize written k ++ more := by
  have hshort : written.length ≤ partPacketPayloadSize * (k + 1) := by
    rw [List.length_append] at hupper
    omega
  rw [chunk_eq_drop hupper, chunk_eq_drop hshort, List.drop_append_of_le_length hlower]

theorem length_chunk_of_upper (hupper : written.length ≤ partPacketPayloadSize * (k + 1)) :
    (chunk partPacketPayloadSize written k).length =
      written.length - partPacketPayloadSize * k := by
  rw [chunk_eq_drop hupper, List.length_drop]

end Open

/-! ## The vector loop -/

namespace VecPacketSerializer

variable (id : PacketId) (threshold : ℕ)

/-- One pass that finds the last buffer full. -/
theorem writeLoop_full (fuel : ℕ) {written rest : Bytes} {k : ℕ} (hrest : rest ≠ [])
    (hfull : written.length = partPacketPayloadSize * (k + 1)) (hk : k + 2 < seqIndexBound) :
    writeLoop (fuel + 1) ⟨threshold, openBuffers id written (k + 1)⟩ rest =
      if k + 1 = threshold then .ok (.error (openBuffers id written (k + 1)))
      else writeLoop fuel ⟨threshold, openBuffers id written (k + 2)⟩ rest := by
  have hlen : (chunk partPacketPayloadSize written k).length = partPacketPayloadSize := by
    rw [length_chunk_of_le hfull.ge]
  have hnil : chunk partPacketPayloadSize written (k + 1) = [] := chunk_eq_nil hfull.le
  have happend := PacketBuffer.append_ofPart id k hlen.le rest
  rw [hlen, Nat.sub_self, List.drop_zero, List.take_zero, List.append_nil] at happend
  have hnext := PacketBuffer.newNext_ofPart (k := k) id hlen.le (by omega)
  rw [writeLoop, if_neg (by simpa using hrest)]
  simp only [openBuffers_succ, List.getLast?_concat, List.dropLast_concat, happend, hnext]
  by_cases hlimit : k + 1 = threshold
  · simp [hlimit]
  · simp [hlimit, hnil]
    rfl

/-- One pass that finds space in the last buffer. -/
theorem writeLoop_space (fuel : ℕ) {written rest : Bytes} {k : ℕ} (hrest : rest ≠ [])
    (hlower : partPacketPayloadSize * k ≤ written.length)
    (hspace : written.length < partPacketPayloadSize * (k + 1)) :
    writeLoop (fuel + 1) ⟨threshold, openBuffers id written (k + 1)⟩ rest =
      writeLoop fuel
        ⟨threshold, openBuffers id
          (written ++ rest.take (partPacketPayloadSize * (k + 1) - written.length)) (k + 1)⟩
        (rest.drop (partPacketPayloadSize * (k + 1) - written.length)) := by
  have hmul : partPacketPayloadSize * (k + 1) = partPacketPayloadSize * k + partPacketPayloadSize :=
    Nat.mul_succ _ _
  have hpos : 0 < rest.length := List.length_pos_iff.mpr hrest
  have hlen := length_chunk_of_upper hspace.le
  have hroom : partPacketPayloadSize - (chunk partPacketPayloadSize written k).length =
      partPacketPayloadSize * (k + 1) - written.length := by
    omega
  have happend := PacketBuffer.append_ofPart id k
    (length_chunk_le partPacketPayloadSize written k) rest
  rw [hroom] at happend
  have hchunk := chunk_append
    (rest.take (partPacketPayloadSize * (k + 1) - written.length)) hlower (by simp; omega)
  rw [writeLoop, if_neg (by simpa using hrest)]
  simp only [openBuffers_succ, List.getLast?_concat, List.dropLast_concat, happend, hchunk,
    openBuffers_append _ hlower]
  rw [if_neg (by simp; omega)]

/-- The loop writes everything, or stops with the full buffers at the threshold. -/
theorem writeLoop_spec (fuel : ℕ) (written rest : Bytes) (k : ℕ)
    (hlower : partPacketPayloadSize * k ≤ written.length)
    (hupper : written.length ≤ partPacketPayloadSize * (k + 1)) (hk : k + 1 ≤ threshold)
    (hlast : rest = [] → k = 0 ∨ partPacketPayloadSize * k < written.length)
    (hbound : (written ++ rest).length ≤ partPacketPayloadSize * (seqIndexBound - 1))
    (hfuel : 2 * rest.length +
      (if rest = [] ∨ written.length = partPacketPayloadSize * (k + 1) then 1 else 0) ≤ fuel) :
    ((written ++ rest).length ≤ partPacketPayloadSize * threshold →
      ∃ k', k' + 1 ≤ threshold ∧ EndsAt (written ++ rest) k' ∧
        writeLoop fuel ⟨threshold, openBuffers id written (k + 1)⟩ rest =
          .ok (.ok ⟨threshold, openBuffers id (written ++ rest) (k' + 1)⟩)) ∧
    (partPacketPayloadSize * threshold < (written ++ rest).length →
      writeLoop fuel ⟨threshold, openBuffers id written (k + 1)⟩ rest =
        .ok (.error (openBuffers id (written ++ rest) threshold))) := by
  induction fuel generalizing written rest k with
  | zero =>
    -- the passes cannot be used up while there is something to do
    have hempty : rest = [] := List.length_eq_zero_iff.mp (by omega)
    simp [hempty] at hfuel
  | succ fuel ih =>
    by_cases hrest : rest = []
    · subst hrest
      have hthreshold := Nat.mul_le_mul_left partPacketPayloadSize hk
      refine ⟨fun _ => ⟨k, hk, ?_, by simp [writeLoop]⟩, fun hover => ?_⟩
      · rw [List.append_nil]
        exact ⟨hlower, hupper, hlast rfl⟩
      · rw [List.append_nil] at hover
        omega
    · have hpos : 0 < rest.length := List.length_pos_iff.mpr hrest
      have hmul : partPacketPayloadSize * (k + 1) =
          partPacketPayloadSize * k + partPacketPayloadSize := Nat.mul_succ _ _
      by_cases hfull : written.length = partPacketPayloadSize * (k + 1)
      · rw [if_pos (Or.inr hfull)] at hfuel
        have hindex : k + 2 < seqIndexBound := by
          rw [List.length_append] at hbound
          have hlt : partPacketPayloadSize * (k + 1) <
              partPacketPayloadSize * (seqIndexBound - 1) := by omega
          have := Nat.lt_of_mul_lt_mul_left hlt
          omega
        rw [writeLoop_full id threshold fuel hrest hfull hindex]
        by_cases hlimit : k + 1 = threshold
        · rw [if_pos hlimit]
          have hover : partPacketPayloadSize * threshold < (written ++ rest).length := by
            rw [List.length_append, ← hlimit]
            omega
          refine ⟨fun hfits => absurd hfits (not_le.mpr hover), fun _ => ?_⟩
          rw [openBuffers_append rest (by rw [← hlimit]; omega), hlimit]
        · rw [if_neg hlimit]
          have hnext : partPacketPayloadSize * (k + 1 + 1) =
              partPacketPayloadSize * (k + 1) + partPacketPayloadSize := Nat.mul_succ _ _
          refine ih written rest (k + 1) hfull.ge (by omega) (by omega)
            (fun hnil => absurd hnil hrest) hbound ?_
          have hcap := partPacketPayloadSize_pos
          rw [if_neg (by rintro (h | h); exacts [hrest h, by omega])]
          omega
      · rw [if_neg (by rintro (h | h); exacts [hrest h, hfull h])] at hfuel
        rw [writeLoop_space id threshold fuel hrest hlower (by omega)]
        set room := partPacketPayloadSize * (k + 1) - written.length with hroom
        have hsplit : written ++ rest.take room ++ rest.drop room = written ++ rest := by
          rw [List.append_assoc, List.take_append_drop]
        have hstep := ih (written ++ rest.take room) (rest.drop room) k (by simp; omega)
          (by simp; omega) hk (fun _ => Or.inr (by simp; omega)) (by rw [hsplit]; exact hbound)
          (by simp only [List.length_drop]; split_ifs <;> omega)
        rw [hsplit] at hstep
        exact hstep

/-- Writing a value: everything is written, or the buffers at the threshold are full. -/
theorem serializeValue_spec (value : List Bytes) (written : Bytes) (k : ℕ)
    (hends : EndsAt written k) (hk : k + 1 ≤ threshold)
    (hbound : (written ++ value.flatten).length ≤ partPacketPayloadSize * (seqIndexBound - 1)) :
    ((written ++ value.flatten).length ≤ partPacketPayloadSize * threshold →
      ∃ k', k' + 1 ≤ threshold ∧ EndsAt (written ++ value.flatten) k' ∧
        serializeValue ⟨threshold, openBuffers id written (k + 1)⟩ value =
          .ok (.ok ⟨threshold, openBuffers id (written ++ value.flatten) (k' + 1)⟩)) ∧
    (partPacketPayloadSize * threshold < (written ++ value.flatten).length →
      serializeValue ⟨threshold, openBuffers id written (k + 1)⟩ value =
        .ok (.error (openBuffers id (written ++ value.flatten) threshold))) := by
  induction value generalizing written k with
  | nil =>
    have hupper := hends.upper
    have hthreshold := Nat.mul_le_mul_left partPacketPayloadSize hk
    refine ⟨fun _ => ⟨k, hk, by simpa using hends, by simp [serializeValue]⟩, fun hover => ?_⟩
    simp at hover
    omega
  | cons bytes value ih =>
    have hsplit : written ++ (bytes :: value).flatten = written ++ bytes ++ value.flatten := by
      simp
    rw [hsplit] at hbound ⊢
    have hbytes : (written ++ bytes).length ≤ partPacketPayloadSize * (seqIndexBound - 1) := by
      rw [List.length_append] at hbound
      omega
    obtain ⟨hfits, hover⟩ := writeLoop_spec id threshold (2 * bytes.length + 1) written bytes k
      hends.lower hends.upper hk (fun _ => hends.last) hbytes (by split_ifs <;> omega)
    have hwrite : write ⟨threshold, openBuffers id written (k + 1)⟩ bytes =
      writeLoop (2 * bytes.length + 1) ⟨threshold, openBuffers id written (k + 1)⟩ bytes := rfl
    by_cases hle : (written ++ bytes).length ≤ partPacketPayloadSize * threshold
    · obtain ⟨k', hk', hends', hloop⟩ := hfits hle
      have hunfold : serializeValue ⟨threshold, openBuffers id written (k + 1)⟩ (bytes :: value) =
          serializeValue ⟨threshold, openBuffers id (written ++ bytes) (k' + 1)⟩ value := by
        rw [serializeValue, hwrite, hloop]
        rfl
      rw [hunfold]
      exact ih (written ++ bytes) k' hends' hk' hbound
    · have hlt := not_le.mp hle
      refine ⟨fun hfits' => ?_, fun _ => ?_⟩
      · rw [List.length_append] at hfits'
        omega
      · rw [serializeValue, hwrite, hover hlt, openBuffers_append value.flatten hlt.le]
        rfl

end VecPacketSerializer

/-! ## The channel loop -/

namespace ChannelPacketSerializer

variable {id : PacketId} {skipped : ℕ}

/-- The state of the channel serializer after some bytes were written: part `k` is begun, `skipped`
parts are not sent, and the parts between the two were. -/
structure At (id : PacketId) (skipped : ℕ) (alreadySerialized : List PacketBuffer)
    (written : Bytes) (k : ℕ) (s : ChannelPacketSerializer) : Prop where
  headed : s.buf.Headed id k (written.length - partPacketPayloadSize * k)
  skip : s.skip = skipped - k
  deref : skipped ≤ k →
    s.buf.deref = partDatagram false id k (chunk partPacketPayloadSize written k)
  tx : s.tx = alreadySerialized ++ (List.range' skipped (k - skipped)).map fun i =>
    .ofPart false id i (chunk partPacketPayloadSize written i)

theorem at_new (id : PacketId) (alreadySerialized : List PacketBuffer) :
    At id alreadySerialized.length alreadySerialized [] 0
      ⟨alreadySerialized.length, PacketBuffer.new id, alreadySerialized⟩ where
  headed := by
    rw [PacketBuffer.new_eq]
    exact PacketBuffer.headed_ofPart id 0 (Nat.zero_le _)
  skip := by simp
  deref := by
    intro _
    rw [PacketBuffer.new_eq, PacketBuffer.deref_ofPart _ (by simp)]
    simp [chunk]
  tx := by simp

/-- The parts sent so far do not change when more is written. -/
theorem sent_append {written : Bytes} {k : ℕ} (more : Bytes)
    (hlower : partPacketPayloadSize * k ≤ written.length) :
    (List.range' skipped (k - skipped)).map (fun i =>
        PacketBuffer.ofPart false id i (chunk partPacketPayloadSize (written ++ more) i)) =
      (List.range' skipped (k - skipped)).map fun i =>
        .ofPart false id i (chunk partPacketPayloadSize written i) := by
  refine List.map_congr_left fun i hi => ?_
  have hik : i + 1 ≤ k := by
    rw [List.mem_range'_1] at hi
    omega
  rw [chunk_append_of_le more ((Nat.mul_le_mul_left _ hik).trans hlower)]

/-- One pass that finds the buffer full. -/
theorem writeLoop_full (fuel : ℕ) {alreadySerialized : List PacketBuffer} {written rest : Bytes}
    {k : ℕ} {s : ChannelPacketSerializer} (hs : At id skipped alreadySerialized written k s)
    (hrest : rest ≠ []) (hfull : written.length = partPacketPayloadSize * (k + 1))
    (hk : k + 2 < seqIndexBound) :
    ∃ s', At id skipped alreadySerialized written (k + 1) s' ∧
      writeLoop (fuel + 1) s rest = writeLoop fuel s' rest := by
  have hmul : partPacketPayloadSize * (k + 1) = partPacketPayloadSize * k + partPacketPayloadSize :=
    Nat.mul_succ _ _
  have hused : written.length - partPacketPayloadSize * k = partPacketPayloadSize := by omega
  have hheaded := hs.headed
  rw [hused] at hheaded
  have hlen : (chunk partPacketPayloadSize written k).length = partPacketPayloadSize :=
    length_chunk_of_le hfull.ge
  have hnil : chunk partPacketPayloadSize written (k + 1) = [] := chunk_eq_nil hfull.le
  have hempty : written.length - partPacketPayloadSize * (k + 1) = 0 := by omega
  have hderefNext : ∀ b : PacketBuffer, b.Headed id (k + 1) 0 →
      b.deref = partDatagram false id (k + 1) (chunk partPacketPayloadSize written (k + 1)) := by
    intro b hb
    rw [PacketBuffer.deref, hb.len, Nat.add_zero, hb.header, hnil, partDatagram, List.append_nil]
  by_cases hskip : s.skip > 0
  · -- the part is skipped
    have hskipped := hs.skip
    have hfst := PacketBuffer.skip_fst hheaded.len rest
    have hskipHeaded := PacketBuffer.skip_headed hheaded rest
    rw [Nat.sub_self] at hfst hskipHeaded
    rw [Nat.min_zero, Nat.add_zero] at hskipHeaded
    obtain ⟨buf', hnext, hheaded'⟩ := PacketBuffer.next_headed hskipHeaded (by omega)
    refine ⟨⟨s.skip - 1, buf', s.tx⟩, ⟨?_, ?_, fun _ => hderefNext _ hheaded', ?_⟩, ?_⟩
    · rw [hempty]
      exact hheaded'
    · simp only
      omega
    · rw [hs.tx, show k - skipped = 0 by omega, show k + 1 - skipped = 0 by omega]
    · rw [writeLoop, if_neg (by simpa using hrest)]
      simp only [if_pos hskip, hfst, List.drop_zero, hnext]
      rfl
  · -- the part is sent
    have hskipped := hs.skip
    have hle : skipped ≤ k := by omega
    have hfst := PacketBuffer.append_fst hheaded.len rest
    have happHeaded := PacketBuffer.append_headed hheaded rest
    rw [Nat.sub_self] at hfst happHeaded
    rw [Nat.min_zero, Nat.add_zero] at happHeaded
    have hderef : (s.buf.append rest).2.deref =
        partDatagram false id k (chunk partPacketPayloadSize written k) := by
      have hsize : packetBufferSize - s.buf.len = 0 := by
        rw [hheaded.len, PacketBuffer.headerLen_add_partPacketPayloadSize, Nat.sub_self]
      rw [PacketBuffer.append_deref, hsize, List.take_zero, List.append_nil, hs.deref hle]
    have hcopy := PacketBuffer.copy_of_deref (by rw [happHeaded.len, hlen]) hderef hlen.le
    obtain ⟨buf', hnext, hheaded'⟩ := PacketBuffer.next_headed happHeaded (by omega)
    refine ⟨⟨s.skip, buf', s.tx ++ [(s.buf.append rest).2.copy]⟩,
      ⟨?_, ?_, fun _ => hderefNext _ hheaded', ?_⟩, ?_⟩
    · rw [hempty]
      exact hheaded'
    · simp only
      omega
    · simp only [hs.tx, hcopy, show k + 1 - skipped = k - skipped + 1 by omega,
        List.range'_concat, List.map_append, List.append_assoc]
      simp [show skipped + (k - skipped) = k by omega]
    · rw [writeLoop, if_neg (by simpa using hrest)]
      simp only [if_neg hskip, hfst, List.drop_zero, hnext]
      rfl

/-- One pass that finds space in the buffer. -/
theorem writeLoop_space (fuel : ℕ) {alreadySerialized : List PacketBuffer} {written rest : Bytes}
    {k : ℕ} {s : ChannelPacketSerializer} (hs : At id skipped alreadySerialized written k s)
    (hrest : rest ≠ []) (hlower : partPacketPayloadSize * k ≤ written.length)
    (hspace : written.length < partPacketPayloadSize * (k + 1)) :
    ∃ s', At id skipped alreadySerialized
        (written ++ rest.take (partPacketPayloadSize * (k + 1) - written.length)) k s' ∧
      writeLoop (fuel + 1) s rest =
        writeLoop fuel s' (rest.drop (partPacketPayloadSize * (k + 1) - written.length)) := by
  have hmul : partPacketPayloadSize * (k + 1) = partPacketPayloadSize * k + partPacketPayloadSize :=
    Nat.mul_succ _ _
  have hpos : 0 < rest.length := List.length_pos_iff.mpr hrest
  have hroom : partPacketPayloadSize - (written.length - partPacketPayloadSize * k) =
      partPacketPayloadSize * (k + 1) - written.length := by
    omega
  set room := partPacketPayloadSize * (k + 1) - written.length with hroomDef
  have hused : written.length - partPacketPayloadSize * k + min rest.length room =
      (written ++ rest.take room).length - partPacketPayloadSize * k := by
    simp
    omega
  by_cases hskip : s.skip > 0
  · have hfst := PacketBuffer.skip_fst hs.headed.len rest
    have hheaded := PacketBuffer.skip_headed hs.headed rest
    rw [hroom] at hfst hheaded
    rw [hused] at hheaded
    refine ⟨{ s with buf := (s.buf.skip rest).2 }, ⟨hheaded, hs.skip, fun hle => ?_, ?_⟩, ?_⟩
    · have := hs.skip
      omega
    · rw [sent_append _ hlower]
      exact hs.tx
    · rw [writeLoop, if_neg (by simpa using hrest)]
      simp only [if_pos hskip, hfst]
      rw [if_neg (by simp; omega)]
  · have hfst := PacketBuffer.append_fst hs.headed.len rest
    have hheaded := PacketBuffer.append_headed hs.headed rest
    rw [hroom] at hfst hheaded
    rw [hused] at hheaded
    refine ⟨{ s with buf := (s.buf.append rest).2 }, ⟨hheaded, hs.skip, fun hle => ?_, ?_⟩, ?_⟩
    · have hsize : packetBufferSize - s.buf.len = room := by
        have hcap := PacketBuffer.headerLen_add_partPacketPayloadSize
        rw [hs.headed.len]
        omega
      simp only
      rw [PacketBuffer.append_deref, hsize, hs.deref hle,
        chunk_append (rest.take room) hlower (by simp; omega)]
      simp [partDatagram]
    · rw [sent_append _ hlower]
      exact hs.tx
    · rw [writeLoop, if_neg (by simpa using hrest)]
      simp only [if_neg hskip, hfst]
      rw [if_neg (by simp; omega)]

/-- The loop writes everything. -/
theorem writeLoop_spec (fuel : ℕ) {alreadySerialized : List PacketBuffer} (written rest : Bytes)
    (k : ℕ) (s : ChannelPacketSerializer) (hs : At id skipped alreadySerialized written k s)
    (hlower : partPacketPayloadSize * k ≤ written.length)
    (hupper : written.length ≤ partPacketPayloadSize * (k + 1))
    (hlast : rest = [] → k = 0 ∨ partPacketPayloadSize * k < written.length)
    (hbound : (written ++ rest).length ≤ partPacketPayloadSize * (seqIndexBound - 1))
    (hfuel : 2 * rest.length +
      (if rest = [] ∨ written.length = partPacketPayloadSize * (k + 1) then 1 else 0) ≤ fuel) :
    ∃ k' s', writeLoop fuel s rest = (.ok (), s') ∧ EndsAt (written ++ rest) k' ∧
      At id skipped alreadySerialized (written ++ rest) k' s' := by
  induction fuel generalizing written rest k s with
  | zero =>
    have hempty : rest = [] := List.length_eq_zero_iff.mp (by omega)
    simp [hempty] at hfuel
  | succ fuel ih =>
    by_cases hrest : rest = []
    · subst hrest
      refine ⟨k, s, by simp [writeLoop], ?_, ?_⟩
      · rw [List.append_nil]
        exact ⟨hlower, hupper, hlast rfl⟩
      · rw [List.append_nil]
        exact hs
    · have hpos : 0 < rest.length := List.length_pos_iff.mpr hrest
      have hmul : partPacketPayloadSize * (k + 1) =
          partPacketPayloadSize * k + partPacketPayloadSize := Nat.mul_succ _ _
      by_cases hfull : written.length = partPacketPayloadSize * (k + 1)
      · rw [if_pos (Or.inr hfull)] at hfuel
        have hindex : k + 2 < seqIndexBound := by
          rw [List.length_append] at hbound
          have hlt : partPacketPayloadSize * (k + 1) <
              partPacketPayloadSize * (seqIndexBound - 1) := by omega
          have := Nat.lt_of_mul_lt_mul_left hlt
          omega
        obtain ⟨s', hs', hloop⟩ := writeLoop_full fuel hs hrest hfull hindex
        have hnext : partPacketPayloadSize * (k + 1 + 1) =
            partPacketPayloadSize * (k + 1) + partPacketPayloadSize := Nat.mul_succ _ _
        rw [hloop]
        refine ih written rest (k + 1) s' hs' hfull.ge (by omega)
          (fun hnil => absurd hnil hrest) hbound ?_
        have hcap := partPacketPayloadSize_pos
        rw [if_neg (by rintro (h | h); exacts [hrest h, by omega])]
        omega
      · rw [if_neg (by rintro (h | h); exacts [hrest h, hfull h])] at hfuel
        obtain ⟨s', hs', hloop⟩ := writeLoop_space fuel hs hrest hlower (by omega)
        set room := partPacketPayloadSize * (k + 1) - written.length with hroom
        have hsplit : written ++ rest.take room ++ rest.drop room = written ++ rest := by
          rw [List.append_assoc, List.take_append_drop]
        have hstep := ih (written ++ rest.take room) (rest.drop room) k s' hs' (by simp; omega)
          (by simp; omega) (fun _ => Or.inr (by simp; omega)) (by rw [hsplit]; exact hbound)
          (by simp only [List.length_drop]; split_ifs <;> omega)
        rw [hsplit] at hstep
        rw [hloop]
        exact hstep

/-- Writing a value writes everything. -/
theorem serializeValue_spec {alreadySerialized : List PacketBuffer} (value : List Bytes)
    (written : Bytes) (k : ℕ) (s : ChannelPacketSerializer)
    (hs : At id skipped alreadySerialized written k s) (hends : EndsAt written k)
    (hbound : (written ++ value.flatten).length ≤ partPacketPayloadSize * (seqIndexBound - 1)) :
    ∃ k' s', serializeValue s value = (.ok (), s') ∧ EndsAt (written ++ value.flatten) k' ∧
      At id skipped alreadySerialized (written ++ value.flatten) k' s' := by
  induction value generalizing written k s with
  | nil => exact ⟨k, s, rfl, by simpa using hends, by simpa using hs⟩
  | cons bytes value ih =>
    have hsplit : written ++ (bytes :: value).flatten = written ++ bytes ++ value.flatten := by
      simp
    rw [hsplit] at hbound ⊢
    have hbytes : (written ++ bytes).length ≤ partPacketPayloadSize * (seqIndexBound - 1) := by
      rw [List.length_append] at hbound
      omega
    obtain ⟨k', s', hloop, hends', hs'⟩ := writeLoop_spec (2 * bytes.length + 1) written bytes k s
      hs hends.lower hends.upper (fun _ => hends.last) hbytes (by split_ifs <;> omega)
    have hunfold : serializeValue s (bytes :: value) = serializeValue s' value := by
      rw [serializeValue, write, hloop]
    rw [hunfold]
    exact ih (written ++ bytes) k' s' hs' hends' hbound

end ChannelPacketSerializer

/-! ## Serializing a packet -/

section Serialize

variable {id : PacketId} {threshold : ℕ} {value : List Bytes}

/-- The length of a payload whose number of parts fits into a sequence index. -/
theorem length_le_of_chunkCount_lt {payload : Bytes} (h : chunkCount payload < seqIndexBound) :
    payload.length ≤ partPacketPayloadSize * (seqIndexBound - 1) :=
  (length_le_mul_count partPacketPayloadSize_pos payload).trans
    (Nat.mul_le_mul_left _ (by unfold chunkCount at h; omega))

/-- The parts are the full ones, followed by the last one. -/
theorem chunkBuffers_eq {payload : Bytes} {k : ℕ} (hk : chunkCount payload = k + 1) :
    chunkBuffers id payload = openBuffers id payload k ++
      [.ofPart true id k (chunk partPacketPayloadSize payload k)] := by
  have hfront : ∀ i ∈ List.range k, chunkBuffer id payload i =
      .ofPart false id i (chunk partPacketPayloadSize payload i) := by
    intro i hi
    have hik := List.mem_range.mp hi
    have hnot : ¬i + 1 = chunkCount payload := by omega
    simp [chunkBuffer, hnot, chunkPayload]
  have hlast : k + 1 = chunkCount payload := hk.symm
  rw [chunkBuffers, hk, List.range_succ, List.map_append, List.map_congr_left hfront]
  simp [openBuffers, chunkBuffer, hlast, chunkPayload]

/-- The first attempt succeeds if and only if the parts do not exceed the threshold. -/
theorem serializeInMemory_eq (h : chunkCount value.flatten < seqIndexBound) :
    serializeInMemory id threshold value =
      if chunkCount value.flatten ≤ threshold then .ok (.ok (chunkBuffers id value.flatten))
      else .ok (.error (openBuffers id value.flatten threshold)) := by
  have hpos := chunkCount_pos value.flatten
  by_cases hzero : threshold = 0
  · subst hzero
    rw [if_neg (by omega)]
    rfl
  · have hopen : [PacketBuffer.new id] = openBuffers id [] (0 + 1) := by
      simp [openBuffers, PacketBuffer.new_eq, chunk]
    obtain ⟨hfits, hover⟩ := VecPacketSerializer.serializeValue_spec id threshold value [] 0
      endsAt_nil (by omega) (length_le_of_chunkCount_lt h)
    rw [List.nil_append] at hfits hover
    unfold serializeInMemory
    simp only [if_neg hzero, hopen]
    by_cases hle : value.flatten.length ≤ partPacketPayloadSize * threshold
    · obtain ⟨k, hk, hends, hvalue⟩ := hfits hle
      have hcount := hends.chunkCount_eq
      rw [if_pos (by omega), hvalue, chunkBuffers_eq hcount]
      simp only [pure, Except.pure, bind, Except.bind, openBuffers_succ, List.dropLast_concat,
        List.getLast?_concat, PacketBuffer.markLast_ofPart]
    · have hcount : ¬chunkCount value.flatten ≤ threshold := fun hcount => hle
        ((length_le_mul_count partPacketPayloadSize_pos _).trans (Nat.mul_le_mul_left _ hcount))
      rw [if_neg hcount, hover (not_le.mp hle)]
      rfl

/-- The background thread, started after the first attempt failed, sends all parts.  In particular
its assertion holds. -/
theorem serializeThread_eq (h : chunkCount value.flatten < seqIndexBound)
    (hthreshold : threshold < chunkCount value.flatten) :
    serializeThread id (openBuffers id value.flatten threshold) value =
      (.ok (), chunkBuffers id value.flatten) := by
  have hnew := ChannelPacketSerializer.at_new id (openBuffers id value.flatten threshold)
  rw [length_openBuffers] at hnew
  obtain ⟨k, s, hvalue, hends, hs⟩ := ChannelPacketSerializer.serializeValue_spec value [] 0 _
    hnew endsAt_nil (length_le_of_chunkCount_lt h)
  rw [List.nil_append] at hends hs
  have hcount := hends.chunkCount_eq
  have hle : threshold ≤ k := by omega
  have hskip : s.skip = 0 := by rw [hs.skip, Nat.sub_eq_zero_of_le hle]
  have hlen := length_chunk_of_upper hends.upper
  have hheaded := hs.headed.len
  rw [← hlen] at hheaded
  have hmarked := PacketBuffer.markLast_deref hheaded (hs.deref hle)
  have hcopy := PacketBuffer.copy_of_deref (b := s.buf.markLast) hheaded hmarked
    (length_chunk_le _ _ _)
  have hsent : openBuffers id value.flatten threshold ++
      (List.range' threshold (k - threshold)).map (fun i =>
        .ofPart false id i (chunk partPacketPayloadSize value.flatten i)) =
      openBuffers id value.flatten k := by
    unfold openBuffers
    have happend := List.range'_append_1 (s := 0) (m := threshold) (n := k - threshold)
    rw [Nat.zero_add, show threshold + (k - threshold) = k by omega] at happend
    rw [← List.map_append, List.range_eq_range', List.range_eq_range', happend]
  unfold serializeThread
  rw [length_openBuffers]
  simp only [hvalue, hskip, if_pos, hs.tx, hsent, hcopy]
  rw [chunkBuffers_eq hcount]

/-- **Both paths give the canonical parts**, as a vector if and only if they do not exceed the
threshold. -/
theorem serializePacket_eq (h : chunkCount value.flatten < seqIndexBound) :
    serializePacket id threshold value =
      .ok (if chunkCount value.flatten ≤ threshold then .vec (chunkBuffers id value.flatten)
        else .channel (chunkBuffers id value.flatten)) := by
  unfold serializePacket
  rw [serializeInMemory_eq h]
  by_cases hle : chunkCount value.flatten ≤ threshold
  · simp only [if_pos hle]
    rfl
  · simp only [if_neg hle]
    simp only [bind, Except.bind, pure, Except.pure, serializeThread_eq h (not_le.mp hle)]

end Serialize

theorem length_chunkDatagram_of_not_last {id : PacketId} {payload : Bytes} {i : ℕ}
    (hi : i + 1 < chunkCount payload) :
    (chunkDatagram id payload i).length = packetBufferSize := by
  have hfull : (chunkPayload payload i).length = partPacketPayloadSize :=
    length_chunk_of_le (mul_succ_le_length partPacketPayloadSize_pos hi)
  rw [chunkDatagram, partDatagram, List.length_append, length_partHeader, hfull,
    PacketBuffer.headerLen_add_partPacketPayloadSize]

theorem drop_headerLen_chunkDatagram (id : PacketId) (payload : Bytes) (i : ℕ) :
    (chunkDatagram id payload i).drop headerLen = chunkPayload payload i := by
  rw [chunkDatagram, partDatagram]
  exact List.drop_left' (length_partHeader _ _ _)

/-- **Serialization is canonical.**  For every id, every threshold and every way a payload that
takes fewer than `2 ^ 32` parts is split into writes, `serializePacket` does not panic and its loops
end; it gives a vector if and only if the parts do not exceed the threshold, and otherwise the
background thread ends without a failed assertion and sends the same parts.  Part `i` carries the
id, the index `i` and the kind of a last part exactly if it is the last one; every part but the last
one fills 512 bytes; the payloads concatenate to the payload. -/
theorem serializePacket_canonical (id : PacketId) (threshold : ℕ) (value : List Bytes)
    (h : max 1 ((value.flatten.length + 490) / 491) < 2 ^ 32) :
    ∃ chunks : List PacketBuffer,
      serializePacket id threshold value =
        .ok (if chunks.length ≤ threshold then .vec chunks else .channel chunks) ∧
      (∀ alreadySerialized,
        serializeInMemory id threshold value = .ok (.error alreadySerialized) →
        serializeThread id alreadySerialized value = (.ok (), chunks)) ∧
      chunks.length = max 1 ((value.flatten.length + 490) / 491) ∧
      (∀ i (hi : i < chunks.length), chunks[i].acked = false ∧
        (∃ payload, chunks[i].deref = partDatagram (i + 1 = chunks.length) id i payload) ∧
        (i + 1 < chunks.length → chunks[i].deref.length = 512)) ∧
      (chunks.map fun b => b.deref.drop headerLen).flatten = value.flatten := by
  have hcount : chunkCount value.flatten < seqIndexBound := h
  refine ⟨chunkBuffers id value.flatten, ?_, ?_, length_chunkBuffers _ _, ?_, ?_⟩
  · rw [length_chunkBuffers]
    exact serializePacket_eq hcount
  · intro alreadySerialized hfirst
    rw [serializeInMemory_eq hcount] at hfirst
    split_ifs at hfirst with hle
    · cases hfirst
    · obtain rfl : openBuffers id value.flatten threshold = alreadySerialized := by
        simpa using hfirst
      exact serializeThread_eq hcount (not_le.mp hle)
  · intro i hi
    have hi' : i < chunkCount value.flatten := by simpa using hi
    have hget : (chunkBuffers id value.flatten)[i] = chunkBuffer id value.flatten i := by
      simp [chunkBuffers]
    rw [hget, length_chunkBuffers, deref_chunkBuffer]
    exact ⟨rfl, ⟨_, rfl⟩, fun hlast => length_chunkDatagram_of_not_last hlast⟩
  · have hpayload : (fun b : PacketBuffer => b.deref.drop headerLen) ∘ chunkBuffer id value.flatten =
        chunkPayload value.flatten := by
      funext i
      simp [drop_headerLen_chunkDatagram]
    rw [chunkBuffers, List.map_map, hpayload, flatten_chunkPayloads]

/-- Without in-memory serialization even three bytes go through the channel. -/
theorem serializePacket_canonical_threshold_zero :
    ∃ chunks, serializePacket (.replicate 7) 0 [[1, 2], [], [3]] = .ok (.channel chunks) ∧
      chunks.length = 1 ∧ (chunks.map fun b => b.deref.drop headerLen).flatten = [1, 2, 3] := by
  obtain ⟨chunks, heq, -, hlen, -, hflat⟩ :=
    serializePacket_canonical (.replicate 7) 0 [[1, 2], [], [3]] (by decide)
  have hone : chunks.length = 1 := hlen
  rw [if_neg (by omega)] at heq
  exact ⟨chunks, heq, hone, hflat⟩

end Ultinet
