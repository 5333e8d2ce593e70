import Ultinet.Lib.BitWindow
import Ultinet.Packet.Chunks

/-!
# Reassembling a packet from its parts

`receive.rs`: a `ReassembledPacket` writes the payload of each part to its place and keeps track of
which parts it has, in a bitmap whose front is drained in multiples of 256 parts.  The last part is
not counted, and is known by its kind.

The invariant `Reassembles payload S` says that the packet is what the parts in `S` make of it,
whatever order they came in (`receive_new`).  A part that is already there is a duplicate, unless
its bit was drained: then the offset underflows and the program panics (`receive_again`).
-/

namespace Ultinet

open BitWindow Chunking

/-- A packet that is being reassembled. -/
structure ReassembledPacket where
  payload : Bytes
  receivedChunks : List Bool
  firstPending : ℕ
  receivedCount : ℕ
  maxIndex : Option ℕ

/-- What became of a part. -/
inductive ReceivedPacket
  | pending
  | duplicate
  | reassembled (payload : Bytes)
  deriving DecidableEq

namespace ReassembledPacket

/-- A packet of which no part was received. -/
def new : ReassembledPacket where
  payload := []
  receivedChunks := []
  firstPending := 0
  receivedCount := 0
  maxIndex := none

/-- How many bits of the bitmap are drained: the set ones at the front, rounded down to a multiple
of 256. -/
def byteBoundary (receivedChunks : List Bool) : ℕ :=
  (receivedChunks.findIdx fun received => !received) / 256 * 256

/-- Receive a part. -/
def receive (p : ReassembledPacket) (last : Bool) (seqIndex : ℕ) (payload : Bytes) :
    Exec (ReceivedPacket × ReassembledPacket) :=
  let maxIndex := if last then some seqIndex else p.maxIndex
  let chunkIndex := seqIndex
  if chunkIndex < p.firstPending then .error (.panic "attempt to subtract with overflow")
  else
    let chunkIndexWithOffset := chunkIndex - p.firstPending
    let receivedChunks := grow false (chunkIndexWithOffset + 1) p.receivedChunks
    if receivedChunks[chunkIndexWithOffset]? = some true then
      .ok (.duplicate, { p with receivedChunks, maxIndex })
    else
      let receivedChunks := receivedChunks.set chunkIndexWithOffset true
      let boundary := byteBoundary receivedChunks
      if seqIndexBound ≤ boundary then
        .error (.panic "called `Result::unwrap()` on an `Err` value: TryFromIntError(())")
      else do
        let firstPending ← SeqIndex.add p.firstPending boundary
        let p := { p with
          payload := place 0 (partPacketPayloadSize * chunkIndex) payload p.payload
          receivedChunks := receivedChunks.drop boundary
          firstPending
          maxIndex }
        if some p.receivedCount = maxIndex then return (.reassembled p.payload, p)
        else
          let receivedCount ← SeqIndex.add p.receivedCount 1
          return (.pending, { p with receivedCount })

/-! ## What the parts received so far make of the packet -/

/-- The packet is what the parts in `S` make of it. -/
structure Reassembles (payload : Bytes) (S : Finset ℕ) (p : ReassembledPacket) : Prop where
  parts : S ⊆ Finset.range (chunkCount payload)
  received : ∀ i, Mem p.firstPending p.receivedChunks i ↔ i ∈ S
  window : p.firstPending + p.receivedChunks.length ≤ chunkCount payload
  agrees : Agrees partPacketPayloadSize payload S p.payload
  receivedCount : p.receivedCount = min S.card (chunkCount payload - 1)
  maxIndex : p.maxIndex =
    if chunkCount payload - 1 ∈ S then some (chunkCount payload - 1) else none

theorem reassembles_new (payload : Bytes) : Reassembles payload ∅ new where
  parts := by simp
  received := by simp [new]
  window := by simp [new]
  agrees := agrees_nil _ _
  receivedCount := by simp [new]
  maxIndex := by simp [new]

variable {payload : Bytes} {S : Finset ℕ} {p : ReassembledPacket} {i : ℕ}

/-- The bitmap, grown up to a part. -/
def grown (p : ReassembledPacket) (i : ℕ) : List Bool :=
  grow false (i - p.firstPending + 1) p.receivedChunks

/-- Growing the bitmap does not change which parts it has. -/
theorem mem_grown (p : ReassembledPacket) (i j : ℕ) :
    Mem p.firstPending (p.grown i) j ↔ Mem p.firstPending p.receivedChunks j := by
  unfold grown grow
  split_ifs
  · exact mem_append_replicate _
  · exact Iff.rfl

theorem lt_length_grown (p : ReassembledPacket) (i : ℕ) :
    i - p.firstPending < (p.grown i).length := by
  rw [grown, length_grow]
  omega

theorem byteBoundary_le (bits : List Bool) : byteBoundary bits ≤ bits.length :=
  (Nat.div_mul_le_self _ _).trans List.findIdx_le_length

/-- Draining the bitmap does not change which parts it has. -/
theorem mem_drained (base : ℕ) (bits : List Bool) (j : ℕ) :
    Mem (base + byteBoundary bits) (bits.drop (byteBoundary bits)) j ↔ Mem base bits j :=
  mem_drop fun _ hn => getElem?_of_lt_findIdx (hn.trans_le (Nat.div_mul_le_self _ _))

/-- The index of the last part is known once it was received. -/
theorem maxIndex_insert (h : Reassembles payload S p) (hi : i < chunkCount payload) :
    (if i + 1 = chunkCount payload then some i else p.maxIndex) =
      if chunkCount payload - 1 ∈ insert i S then some (chunkCount payload - 1) else none := by
  by_cases hlast : i + 1 = chunkCount payload
  · have hi' : chunkCount payload - 1 = i := by omega
    rw [if_pos hlast, hi', if_pos (Finset.mem_insert_self _ _)]
  · have hne : chunkCount payload - 1 ≠ i := by omega
    rw [if_neg hlast, h.maxIndex]
    simp [hne]

/-- The number of parts that are counted, before a part that was missing is received. -/
theorem card_eq_of_new (h : Reassembles payload S p) (hi : i < chunkCount payload)
    (hnew : i ∉ S) : p.receivedCount = S.card ∧ S.card + 1 ≤ chunkCount payload ∧
      (insert i S = Finset.range (chunkCount payload) ↔ S.card + 1 = chunkCount payload) := by
  have hsub : insert i S ⊆ Finset.range (chunkCount payload) :=
    Finset.insert_subset (Finset.mem_range.mpr hi) h.parts
  have hcard := Finset.card_le_card hsub
  rw [Finset.card_insert_of_notMem hnew, Finset.card_range] at hcard
  have hcount := h.receivedCount
  refine ⟨by omega, hcard, fun hfull => ?_, fun hfull => ?_⟩
  · rw [← Finset.card_insert_of_notMem hnew, hfull, Finset.card_range]
  · refine Finset.eq_of_subset_of_card_le hsub ?_
    rw [Finset.card_insert_of_notMem hnew, Finset.card_range, hfull]

/-- **A new part.**  Receiving a part for the first time adds it; the packet is reassembled exactly
if it was the one that was missing. -/
theorem receive_new (h : Reassembles payload S p) (hn : chunkCount payload < seqIndexBound)
    (hi : i < chunkCount payload) (hnew : i ∉ S) :
    ∃ p', p.receive (i + 1 = chunkCount payload) i (chunkPayload payload i) =
        .ok (if insert i S = Finset.range (chunkCount payload) then .reassembled payload
          else .pending, p') ∧
      Reassembles payload (insert i S) p' := by
  have hsub : insert i S ⊆ Finset.range (chunkCount payload) :=
    Finset.insert_subset (Finset.mem_range.mpr hi) h.parts
  have hwindow := h.window
  obtain ⟨hcount, hcard, hfull_iff⟩ := card_eq_of_new h hi hnew
  have hmax := maxIndex_insert h hi
  -- the offset does not underflow, and its bit is not set
  have hbase : p.firstPending ≤ i := by
    by_contra hlt
    exact hnew ((h.received i).mp (mem_of_lt (by omega)))
  have hbit : ¬(p.grown i)[i - p.firstPending]? = some true := by
    rw [← mem_iff_of_le hbase, mem_grown, h.received]
    exact hnew
  -- setting the bit and draining the front
  set bits := (p.grown i).set (i - p.firstPending) true with hbits
  have hlen : p.firstPending + bits.length ≤ chunkCount payload := by
    rw [hbits, List.length_set, grown, length_grow]
    omega
  have hmem : ∀ j, Mem (p.firstPending + byteBoundary bits) (bits.drop (byteBoundary bits)) j ↔
      j ∈ insert i S := by
    intro j
    rw [mem_drained, hbits, mem_set hbase (lt_length_grown p i), mem_grown, h.received,
      Finset.mem_insert]
  have hboundary := byteBoundary_le bits
  have hadd : SeqIndex.add p.firstPending (byteBoundary bits) =
      .ok (p.firstPending + byteBoundary bits) := SeqIndex.add_eq (by omega)
  have hagrees := h.agrees.place (0 : UInt8) partPacketPayloadSize_pos
    (mul_le_length partPacketPayloadSize_pos hi)
  set buffer := place (0 : UInt8) (partPacketPayloadSize * i) (chunkPayload payload i) p.payload
    with hbuffer
  have hsmall : ¬seqIndexBound ≤ byteBoundary bits := by omega
  have hreceive : p.receive (i + 1 = chunkCount payload) i (chunkPayload payload i) = do
      let p := { p with
        payload := buffer
        receivedChunks := bits.drop (byteBoundary bits)
        firstPending := p.firstPending + byteBoundary bits
        maxIndex := if chunkCount payload - 1 ∈ insert i S then some (chunkCount payload - 1)
          else none }
      if some p.receivedCount = p.maxIndex then return (.reassembled p.payload, p)
      else
        let receivedCount ← SeqIndex.add p.receivedCount 1
        return (.pending, { p with receivedCount }) := by
    simp only [receive, decide_eq_true_eq, hmax, if_neg (not_lt.mpr hbase)]
    rw [show grow false (i - p.firstPending + 1) p.receivedChunks = p.grown i from rfl,
      if_neg hbit, ← hbits, if_neg hsmall, hadd]
    rfl
  by_cases hfull : insert i S = Finset.range (chunkCount payload)
  · -- the part was the one that was missing
    have hlast : chunkCount payload - 1 ∈ insert i S := by
      rw [hfull, Finset.mem_range]
      omega
    have hcard' := hfull_iff.mp hfull
    have hbufeq : buffer = payload :=
      hagrees.eq_of_full partPacketPayloadSize_pos fun j hj => by
        rw [hfull]
        exact Finset.mem_range.mpr hj
    refine ⟨⟨buffer, bits.drop (byteBoundary bits), p.firstPending + byteBoundary bits,
      p.receivedCount, some (chunkCount payload - 1)⟩, ?_, hsub, hmem, ?_, hagrees, ?_, ?_⟩
    · rw [hreceive, if_pos hlast, if_pos hfull]
      dsimp only
      rw [if_pos (by rw [hcount]; congr 1; omega), hbufeq]
      rfl
    · dsimp only
      rw [List.length_drop]
      omega
    · dsimp only
      rw [hfull, Finset.card_range]
      omega
    · rw [if_pos hlast]
  · have hcard' : S.card + 1 < chunkCount payload :=
      lt_of_le_of_ne hcard fun heq => hfull (hfull_iff.mpr heq)
    have hne : ¬some p.receivedCount =
        if chunkCount payload - 1 ∈ insert i S then some (chunkCount payload - 1) else none := by
      split_ifs
      · rw [Option.some.injEq]
        omega
      · simp
    refine ⟨⟨buffer, bits.drop (byteBoundary bits), p.firstPending + byteBoundary bits,
      p.receivedCount + 1, if chunkCount payload - 1 ∈ insert i S then
        some (chunkCount payload - 1) else none⟩, ?_, hsub, hmem, ?_, hagrees, ?_, rfl⟩
    · rw [hreceive, if_neg hfull]
      dsimp only
      rw [if_neg hne, SeqIndex.add_eq (by omega)]
      rfl
    · dsimp only
      rw [List.length_drop]
      omega
    · dsimp only
      rw [Finset.card_insert_of_notMem hnew]
      omega

/-- **A part again.**  Receiving a part once more is a duplicate and changes nothing, or it panics
because its bit was drained. -/
theorem receive_again (h : Reassembles payload S p) (hi : i ∈ S) :
    p.receive (i + 1 = chunkCount payload) i (chunkPayload payload i) =
      if i < p.firstPending then .error (.panic "attempt to subtract with overflow")
      else .ok (.duplicate, p) := by
  have hlt : i < chunkCount payload := Finset.mem_range.mp (h.parts hi)
  by_cases hbase : i < p.firstPending
  · simp only [receive, if_pos hbase]
  · have hle : p.firstPending ≤ i := by omega
    have hbit : (p.grown i)[i - p.firstPending]? = some true := by
      rw [← mem_iff_of_le hle, mem_grown, h.received]
      exact hi
    -- the bit is there already, so the bitmap was not grown
    have hgrown : p.grown i = p.receivedChunks := by
      have hold : p.receivedChunks[i - p.firstPending]? = some true := by
        rw [← mem_iff_of_le hle, h.received]
        exact hi
      have := (List.getElem?_eq_some_iff.mp hold).1
      rw [grown, grow, if_neg (by omega)]
    have hmax := maxIndex_insert h hlt
    rw [Finset.insert_eq_of_mem hi, ← h.maxIndex] at hmax
    simp only [receive, decide_eq_true_eq, if_neg hbase, hmax]
    rw [show grow false (i - p.firstPending + 1) p.receivedChunks = p.grown i from rfl,
      if_pos hbit, hgrown]

end ReassembledPacket

end Ultinet
