import Ultinet.Packet.AnyParts
import Ultinet.Packet.Dispatch

/-!
# Where receiving panics

Receiving a part panics in one case only, whatever was received before: when the part is one of those
whose bits were drained, so all parts up to the end of its block of 256 are there already, or when it
is the last one of all the parts there can be (`ReassembledPacket.receive_panics_iff`).  So a peer
that sends 256 parts of a packet and one of them again makes the program panic.

`PacketBuffers.handle_panics_iff` says the same of datagrams: no other bytes make the buffers of a
connection panic.
-/

namespace Ultinet

open BitWindow Chunking

/-- A sum of sequence indices is one. -/
theorem SeqIndex.lt_of_add {a b c : ℕ} (h : add a b = .ok c) : c < seqIndexBound := by
  unfold add at h
  split_ifs at h with hlt
  cases h
  exact hlt

namespace ReassembledPacket

variable {p p' : ReassembledPacket} {parts : List Part} {part : Part} {results : List ReceivedPacket}
  {result : ReceivedPacket} {last : Bool} {i : ℕ} {payload : Bytes}

/-! ## The number of parts that were counted -/

/-- The indices of the parts are numbers of 32 bits. -/
def Bounded (parts : List Part) : Prop :=
  ∀ part ∈ parts, part.seqIndex < seqIndexBound

theorem Bounded.received_subset (h : Bounded parts) :
    received parts ⊆ Finset.range seqIndexBound := by
  intro j hj
  obtain ⟨part, hpart, rfl⟩ := (mem_received parts).mp hj
  exact Finset.mem_range.mpr (h part hpart)

/-- A part is counted at most once. -/
theorem receivedCount_le_card (h : new.feed parts = .ok (results, p)) :
    p.receivedCount ≤ (received parts).card := by
  induction parts using List.reverseRecOn generalizing results p with
  | nil =>
    cases h
    exact Nat.zero_le _
  | append_singleton parts part ih =>
    obtain ⟨results', q, result, hfeed, hreceive, -⟩ := feed_append_ok h
    have hcount := ih hfeed
    have htracks := tracks_feed hfeed
    rw [received_append]
    by_cases hknown : part.seqIndex ∈ received parts
    · rw [Finset.insert_eq_of_mem hknown]
      have hhas := (htracks.has _).mpr hknown
      have hle : q.firstPending ≤ part.seqIndex := by
        by_contra hlt
        rw [receive_drained _ _ (by omega)] at hreceive
        cases hreceive
      rw [receive_known _ _ hle hhas] at hreceive
      cases hreceive
      exact hcount
    · rw [Finset.card_insert_of_notMem hknown]
      have hnew := receive_unknown (fun hhas => hknown ((htracks.has _).mp hhas)) hreceive
      rcases hnew.outcome with ⟨-, -, heq⟩ | ⟨-, -, heq⟩ <;> omega

/-! ## One part -/

/-- Receiving a part panics: its block of 256 parts and all below are there already, or it is the last
one of all the parts there can be. -/
def Exhausts (p : ReassembledPacket) (i : ℕ) : Prop :=
  (∀ j < 256 * (i / 256 + 1), p.Has j) ∨ ∀ j < seqIndexBound, j = i ∨ p.Has j

/-- As many parts as there can be, but for one, are all of them. -/
theorem Tracks.forall_has_of_card (htracks : Tracks parts p) (hbounded : Bounded parts)
    (hi : i < seqIndexBound) (hnew : ¬p.Has i) (hcard : seqIndexBound ≤ (received parts).card + 1)
    (j : ℕ) (hj : j < seqIndexBound) : j = i ∨ p.Has j := by
  have hsub : insert i (received parts) ⊆ Finset.range seqIndexBound :=
    Finset.insert_subset (Finset.mem_range.mpr hi) hbounded.received_subset
  have hfull : insert i (received parts) = Finset.range seqIndexBound := by
    refine Finset.eq_of_subset_of_card_le hsub ?_
    rw [Finset.card_range, Finset.card_insert_of_notMem fun hmem => hnew ((htracks.has i).mpr hmem)]
    exact hcard
  have hmem : j ∈ insert i (received parts) := by
    rw [hfull]
    exact Finset.mem_range.mpr hj
  exact (Finset.mem_insert.mp hmem).imp_right (htracks.has j).mpr

/-- A new part makes the program panic only if it is the last one of all the parts there can be: the
number of drained bits gets too large, or the number of parts. -/
theorem receive_unknown_eq_error {abort : Abort} (htracks : Tracks parts p)
    (hbounded : Bounded parts) (hcount : p.receivedCount ≤ (received parts).card)
    (hi : i < seqIndexBound) (hnew : ¬p.Has i) (h : p.receive last i payload = .error abort) :
    ∀ j < seqIndexBound, j = i ∨ p.Has j := by
  have hle : p.firstPending ≤ i := by
    by_contra hlt
    exact hnew (mem_of_lt (by omega))
  have hbit : ¬(p.grown i)[i - p.firstPending]? = some true := by
    rw [← mem_iff_of_le hle, mem_grown]
    exact hnew
  set bits := (p.grown i).set (i - p.firstPending) true with hbits
  -- what was drained is there
  have hdrained : ∀ j < p.firstPending + byteBoundary bits, j = i ∨ p.Has j := by
    intro j hj
    have hmem : Mem (p.firstPending + byteBoundary bits) (bits.drop (byteBoundary bits)) j :=
      mem_of_lt hj
    rwa [mem_drained, hbits, mem_set hle (lt_length_grown p i), mem_grown] at hmem
  simp only [ReassembledPacket.receive, if_neg (not_lt.mpr hle)] at h
  rw [show grow false (i - p.firstPending + 1) p.receivedChunks = p.grown i from rfl, if_neg hbit,
    ← hbits] at h
  by_cases hlarge : seqIndexBound ≤ byteBoundary bits
  · exact fun j hj => hdrained j (by omega)
  rw [if_neg hlarge] at h
  by_cases hsum : p.firstPending + byteBoundary bits < seqIndexBound
  · rw [SeqIndex.add_eq hsum] at h
    simp only [bind, Except.bind, pure, Except.pure] at h
    by_cases hcomplete : some p.receivedCount = if last then some i else p.maxIndex
    · rw [if_pos hcomplete] at h
      cases h
    · rw [if_neg hcomplete] at h
      by_cases hcarry : p.receivedCount + 1 < seqIndexBound
      · rw [SeqIndex.add_eq hcarry] at h
        cases h
      · exact htracks.forall_has_of_card hbounded hi hnew (by omega)
  · exact fun j hj => hdrained j (by omega)

/-- The number of drained bits is one of 32 bits. -/
theorem receive_firstPending_lt (hlt : p.firstPending < seqIndexBound)
    (h : p.receive last i payload = .ok (result, p')) : p'.firstPending < seqIndexBound := by
  unfold ReassembledPacket.receive at h
  dsimp only at h
  generalize (if last then some i else p.maxIndex) = maxIndex at h
  split_ifs at h
  · cases h
    exact hlt
  · obtain ⟨firstPending, hadd, h⟩ := exists_of_bind_ok h
    cases h
    exact SeqIndex.lt_of_add hadd
  · obtain ⟨firstPending, hadd, h⟩ := exists_of_bind_ok h
    obtain ⟨receivedCount, -, h⟩ := exists_of_bind_ok h
    cases h
    exact SeqIndex.lt_of_add hadd

theorem feed_firstPending_lt (h : new.feed parts = .ok (results, p)) :
    p.firstPending < seqIndexBound := by
  induction parts using List.reverseRecOn generalizing results p with
  | nil =>
    cases h
    exact (by decide : 0 < seqIndexBound)
  | append_singleton parts part ih =>
    obtain ⟨results', q, result, hfeed, hreceive, -⟩ := feed_append_ok h
    exact receive_firstPending_lt (ih hfeed) hreceive

/-- The last one of all the parts there can be drains everything, so the number of drained bits gets
too large. -/
theorem receive_last_of_all (hfeed : new.feed parts = .ok (results, p)) (hnew : ¬p.Has i)
    (hall : ∀ j < seqIndexBound, j = i ∨ p.Has j) :
    p.receive last i payload ≠ .ok (result, p') := by
  intro hreceive
  have hlt := receive_firstPending_lt (feed_firstPending_lt hfeed) hreceive
  have hreceives := receive_unknown hnew hreceive
  obtain ⟨blocks, hblocks⟩ := hreceives.aligned (tracks_feed hfeed).aligned
  -- a bit below the bound is missing, though all parts are there
  obtain ⟨j, hj, hmissing⟩ := hreceives.missing
  refine hmissing ((hreceives.has j).mpr (hall j ?_))
  unfold seqIndexBound at hlt ⊢
  omega

/-- **Where receiving a part panics.**  After any parts, a part makes the program panic exactly if its
block of 256 parts and all below are there already, or if it is the last one of all the parts there
can be. -/
theorem receive_panics_iff (hfeed : new.feed parts = .ok (results, p)) (hbounded : Bounded parts)
    (hi : i < seqIndexBound) (last : Bool) (payload : Bytes) :
    (∃ abort, p.receive last i payload = .error abort) ↔ p.Exhausts i := by
  have htracks := tracks_feed hfeed
  have hdrained : i < p.firstPending ↔ ∀ j < 256 * (i / 256 + 1), p.Has j :=
    (htracks.lt_firstPending_iff i).trans (forall₂_congr fun j _ => (htracks.has j).symm)
  constructor
  · rintro ⟨abort, hpanic⟩
    by_cases hlt : i < p.firstPending
    · exact Or.inl (hdrained.mp hlt)
    · refine Or.inr (receive_unknown_eq_error htracks hbounded (receivedCount_le_card hfeed) hi ?_
        hpanic)
      intro hknown
      rw [receive_known _ _ (not_lt.mp hlt) hknown] at hpanic
      cases hpanic
  · intro hexhausts
    by_cases hlt : i < p.firstPending
    · exact ⟨_, receive_drained last payload hlt⟩
    · have hall := hexhausts.resolve_left fun hblock => hlt (hdrained.mpr hblock)
      have hnew : ¬p.Has i := by
        intro hknown
        refine hlt (hdrained.mpr fun j hj => ?_)
        have hbound : j < seqIndexBound := by
          unfold seqIndexBound at hi ⊢
          omega
        exact (hall j hbound).elim (fun heq => heq ▸ hknown) id
      cases hreceive : p.receive last i payload with
      | error abort => exact ⟨abort, rfl⟩
      | ok received' => exact absurd hreceive (receive_last_of_all hfeed hnew hall)

/-- The first part of a packet does not make the program panic. -/
theorem not_exhausts_new (i : ℕ) : ¬new.Exhausts i := by
  have hnone : ∀ j, ¬new.Has j := fun j hhas => by simp [Has, new] at hhas
  rintro (hblock | hall)
  · exact hnone 0 (hblock 0 (by omega))
  · have hzero := (hall 0 (by decide)).resolve_right (hnone 0)
    have hone := (hall 1 (by decide)).resolve_right (hnone 1)
    omega

/-! ## How a peer makes receiving panic -/

/-- The parts of a packet that comes without a last part, one after the other. -/
def leadingParts (n : ℕ) : List Part :=
  (List.range n).map fun i => ⟨false, i, []⟩

theorem mem_received_leadingParts {n i : ℕ} :
    i ∈ received (leadingParts n) ↔ i < n := by
  simp [leadingParts]

theorem bounded_leadingParts {n : ℕ} (hn : n ≤ 256) :
    Bounded (leadingParts n) := by
  intro part hpart
  obtain ⟨i, hi, rfl⟩ := List.mem_map.mp hpart
  have hlt := List.mem_range.mp hi
  exact (hlt.trans_le hn).trans (by decide)

/-- The first 256 parts are pending. -/
theorem receive_leadingPart {n : ℕ} (hn : n < 256) {results : List ReceivedPacket}
    {p : ReassembledPacket} (hfeed : new.feed (leadingParts n) = .ok (results, p)) :
    ∃ p', p.receive false n [] = .ok (.pending, p') ∧
      new.feed (leadingParts (n + 1)) = .ok (results ++ [.pending], p') := by
  have htracks := tracks_feed hfeed
  have hhas : ∀ i, p.Has i ↔ i < n := fun i => (htracks.has i).trans mem_received_leadingParts
  have hbound : n < seqIndexBound := hn.trans (by decide)
  have hfine : ¬p.Exhausts n := by
    rintro (hblock | hall)
    · have := (hhas 255).mp (hblock 255 (by omega))
      omega
    · have := (hall (n + 1) (by unfold seqIndexBound; omega)).resolve_left (by omega)
      have := (hhas (n + 1)).mp this
      omega
  cases hreceive : p.receive false n [] with
  | error abort =>
    exact absurd ((receive_panics_iff hfeed (bounded_leadingParts hn.le) hbound
      false []).mp ⟨abort, hreceive⟩) hfine
  | ok received =>
    obtain ⟨result, p'⟩ := received
    have hnew := receive_unknown (fun h => absurd ((hhas n).mp h) (by omega))
      hreceive
    have hnone : p'.maxIndex = none := by
      rw [hnew.maxIndex, htracks.maxIndex]
      simp [lastIndex, leadingParts]
    have hpending : result = .pending := by
      rcases hnew.outcome with ⟨-, heq, -⟩ | ⟨hpending, -⟩
      · rw [hnone] at heq
        cases heq
      · exact hpending
    subst hpending
    refine ⟨p', rfl, ?_⟩
    have hparts : leadingParts (n + 1) = leadingParts n ++ [⟨false, n, []⟩] := by
      simp [leadingParts, List.range_succ]
    rw [hparts, feed_append, hfeed]
    simp only [bind, Except.bind, hreceive, pure, Except.pure]

/-- Once the first 256 parts were received, receiving the first one again panics. -/
theorem receive_leadingPart_again (hfeed : new.feed (leadingParts 256) = .ok (results, p)) :
    ∃ abort, p.receive false 0 [] = .error abort := by
  have htracks := tracks_feed hfeed
  refine (receive_panics_iff hfeed (bounded_leadingParts le_rfl) (by decide) false []).mpr
    (Or.inl fun j hj => (htracks.has j).mpr (mem_received_leadingParts.mpr ?_))
  omega

end ReassembledPacket

/-! ## The buffers of a connection -/

namespace PacketBuffers

open ReassembledPacket (Bounded)

/-- The packets being received are what parts made of them. -/
def AllFed (b : PacketBuffers) : Prop :=
  ∀ id entry packet, b.receiveBuffer.packets.get? id = some entry → entry.packet = some packet →
    ∃ parts results, Bounded parts ∧ ReassembledPacket.new.feed parts = .ok (results, packet)

/-- A datagram is a part of a packet of several parts that is being received, and receiving it
panics. -/
def Exhausts (b : PacketBuffers) (buf : Bytes) : Prop :=
  ∃ last id i payload entry packet, i < seqIndexBound ∧ ¬(last = true ∧ i = 0) ∧
    buf = partDatagram last id i payload ∧ b.receiveBuffer.packets.get? id = some entry ∧
    entry.packet = some packet ∧ packet.Exhausts i

/-- A datagram completes a packet, and checking its payload panics. -/
def BreaksCheck {α : Type} (check : Bytes → Exec α) (b : PacketBuffers) (buf : Bytes)
    (addr : SocketAddr) (env : Env) : Prop :=
  ∃ payload b' env' abort, b.handle buf addr env =
    .ok (.ok (.received (.reassembled payload)), b', env') ∧ check payload = .error abort

variable {b b' : PacketBuffers} {addr : SocketAddr} {env env' : Env}

theorem allFed_new (batchSize : NonZeroBatchSize) : (new batchSize).AllFed := by
  intro id entry packet hget
  cases hget

end PacketBuffers

namespace ReceivePacketBuffer

variable {b b' : ReceivePacketBuffer} {last : Bool} {id id' : PacketId} {i : ℕ} {payload : Bytes}
  {addr : SocketAddr} {env env' : Env} {entry : PacketIn} {packet : ReassembledPacket}

/-- Receiving the only part of a packet makes no packet of several parts. -/
theorem receiveSingle_packet
    (hget : (b.receiveSingle id i payload addr env).2.1.packets.get? id' = some entry)
    (hpacket : entry.packet = some packet) : b.packets.get? id' = some entry := by
  unfold receiveSingle at hget
  split at hget
  · have hinsert : (b.packets.insert id { lastReceive := env.now, packet := none }).get? id' =
        some entry := by
      split at hget <;> exact hget
    rw [SortedMap.get?_insert] at hinsert
    split_ifs at hinsert
    · cases hinsert
      cases hpacket
    · exact hinsert
  · split at hget
    · split at hget <;> exact hget
    · exact hget

/-- Receiving a part gives it to the packet of several parts with its id; the others stay. -/
theorem receive_packet {result : Except PacketReceiveError ReceivedPacket}
    (h : b.receive last id i payload addr env = .ok (result, b', env'))
    (hget : b'.packets.get? id' = some entry) (hpacket : entry.packet = some packet) :
    (∃ entry, b.packets.get? id' = some entry ∧ entry.packet = some packet) ∨
      ∃ packet₀ received, (b.touchEntry id env).packet = some packet₀ ∧
        packet₀.receive last i payload = .ok (received, packet) := by
  unfold receive at h
  split_ifs at h
  · have hb' := congrArg (fun r => r.2.1) (Except.ok.inj h)
    dsimp only at hb'
    rw [← hb'] at hget
    exact Or.inl ⟨entry, receiveSingle_packet hget hpacket, hpacket⟩
  · unfold receivePart at h
    dsimp only at h
    split at h
    · rename_i hnone
      cases h
      dsimp only at hget
      rw [SortedMap.get?_insert] at hget
      split_ifs at hget
      · cases hget
        rw [hnone] at hpacket
        cases hpacket
      · exact Or.inl ⟨entry, hget, hpacket⟩
    · rename_i packet₀ hpacket₀
      obtain ⟨⟨received, packet'⟩, hreceive, h⟩ := exists_of_bind_ok h
      have hinsert : (b.packets.insert id
          { b.touchEntry id env with packet := some packet' }).get? id' = some entry := by
        dsimp only at h
        split at h <;> cases h <;> exact hget
      rw [SortedMap.get?_insert] at hinsert
      split_ifs at hinsert
      · cases hinsert
        cases hpacket
        exact Or.inr ⟨packet₀, received, hpacket₀, hreceive⟩
      · exact Or.inl ⟨entry, hinsert, hpacket⟩

/-- Receiving a part panics only where the packet of several parts with its id does. -/
theorem receive_eq_error_iff {abort : Abort} :
    b.receive last id i payload addr env = .error abort ↔ ¬(last = true ∧ i = 0) ∧
      ∃ packet, (b.touchEntry id env).packet = some packet ∧
        packet.receive last i payload = .error abort := by
  unfold receive
  split_ifs with hsingle
  · simp [hsingle]
  · unfold receivePart
    dsimp only
    split
    · rename_i hnone
      simp [hnone]
    · rename_i packet hpacket
      cases hreceive : packet.receive last i payload with
      | error abort' => simp [hpacket, hreceive, hsingle, bind, Except.bind]
      | ok received =>
        obtain ⟨received, packet'⟩ := received
        simp only [bind, Except.bind, hpacket, hreceive, Option.some.injEq, exists_eq_left',
          reduceCtorEq, and_false, iff_false]
        split <;> simp [pure, Except.pure]

end ReceivePacketBuffer

namespace PacketBuffers

open ReassembledPacket (Bounded)

variable {b b' : PacketBuffers} {addr : SocketAddr} {env env' : Env}

/-- The packet that a part is given to. -/
theorem AllFed.touchEntry {id : PacketId} {packet : ReassembledPacket} (hb : b.AllFed)
    (hpacket : (b.receiveBuffer.touchEntry id env).packet = some packet) :
    ∃ parts results, Bounded parts ∧ ReassembledPacket.new.feed parts = .ok (results, packet) := by
  unfold ReceivePacketBuffer.touchEntry at hpacket
  split at hpacket
  · rename_i entry hget
    exact hb id entry packet hget hpacket
  · cases hpacket
    exact ⟨[], [], fun part hpart => (by cases hpart), rfl⟩

/-- The packets stay what parts made of them, if every packet that is there was there before. -/
theorem AllFed.of_subset (hb : b.AllFed)
    (h : ∀ id entry, b'.receiveBuffer.packets.get? id = some entry →
      b.receiveBuffer.packets.get? id = some entry) : b'.AllFed :=
  fun id entry packet hget hpacket => hb id entry packet (h id entry hget) hpacket

/-- A part that is received gets added. -/
theorem AllFed.receive {last : Bool} {id : PacketId} {i : ℕ} {payload : Bytes}
    {result : Except HandlePacketError PacketHandling} (hb : b.AllFed) (hi : i < seqIndexBound)
    (h : b.receive addr env last id i payload = .ok (result, b', env')) : b'.AllFed := by
  unfold PacketBuffers.receive at h
  cases hreceive : b.receiveBuffer.receive last id i payload addr env with
  | error abort =>
    rw [hreceive] at h
    cases h
  | ok received =>
    obtain ⟨result', receiveBuffer, env''⟩ := received
    rw [hreceive] at h
    cases h
    intro id' entry packet hget hpacket
    rcases ReceivePacketBuffer.receive_packet hreceive hget hpacket with
      ⟨entry', hget', hpacket'⟩ | ⟨packet', received, htouch, hpart⟩
    · exact hb id' entry' packet hget' hpacket'
    · obtain ⟨parts, results, hbounded, hfeed⟩ := hb.touchEntry htouch
      refine ⟨parts ++ [⟨last, i, payload⟩], results ++ [received], fun part hmem => ?_, ?_⟩
      · rcases List.mem_append.mp hmem with hmem | hmem
        · exact hbounded part hmem
        · rw [List.mem_singleton.mp hmem]
          exact hi
      · rw [ReassembledPacket.feed_append, hfeed]
        simp only [bind, Except.bind, hpart, pure, Except.pure]

theorem AllFed.handle {buf : Bytes} {result : Except HandlePacketError PacketHandling}
    (hb : b.AllFed) (h : b.handle buf addr env = .ok (result, b', env')) : b'.AllFed := by
  by_cases hwf : WellFormed buf
  · rcases hwf.cases with ⟨last, id, i, payload, hi, rfl⟩ | ⟨id, i, rest, hi, rfl⟩ | ⟨id, rest, rfl⟩
    · rw [handle_part b addr env last id hi payload] at h
      exact hb.receive hi h
    · rw [handle_ack b addr env id hi rest] at h
      cases h
      exact hb
    · rw [handle_done b addr env id rest] at h
      cases h
      refine hb.of_subset fun id' entry hget => ?_
      have herase : (b.receiveBuffer.packets.erase id).get? id' = some entry := hget
      rw [SortedMap.get?_erase] at herase
      split_ifs at herase
      exact herase
  · obtain ⟨error, -, hreject⟩ := exists_rejection hwf
    rw [hreject] at h
    cases h
    exact hb

theorem AllFed.send {value : List Bytes} {threshold : ℕ} {result : IoResult PacketId}
    (hb : b.AllFed) (h : b.send value threshold addr env = .ok (result, b', env')) : b'.AllFed := by
  obtain ⟨serialized, -, ⟨error, -, -, rfl⟩ | ⟨packetOut, -, -, rfl⟩⟩ := send_cases h
  · exact hb
  · exact hb

theorem AllFed.update {resendDelay : ℕ} {maxMissedAcks receiveTimeout : Option ℕ}
    {result : IoResult Unit} (hb : b.AllFed)
    (h : b.update resendDelay maxMissedAcks receiveTimeout addr env = (result, b', env')) :
    b'.AllFed := by
  unfold PacketBuffers.update at h
  cases h
  refine hb.of_subset fun id entry hget => ?_
  unfold timeoutPackets at hget
  cases receiveTimeout with
  | none => exact hget
  | some timeout =>
    simp only [ReceivePacketBuffer.timeoutPackets, SortedMap.get?_retain,
      Option.filter_eq_some_iff] at hget
    exact hget.1

/-- Such a datagram is no ping. -/
theorem Exhausts.exists_eq_cons {buf : Bytes} (h : b.Exhausts buf) :
    ∃ kind data, buf = kind :: data ∧ PacketKind.tryFrom kind ≠ some .ping := by
  obtain ⟨last, id, i, payload, entry, packet, -, -, rfl, -⟩ := h
  refine ⟨(if last then PacketKind.lastPart else PacketKind.part).toByte,
    id.bytes ++ SeqIndex.toLeBytes i ++ payload, by simp [partDatagram, partHeader], ?_⟩
  rw [PacketKind.tryFrom_toByte]
  cases last <;> decide

/-- Nor does a ping complete a packet. -/
theorem BreaksCheck.exists_eq_cons {α : Type} {check : Bytes → Exec α} {buf : Bytes}
    (h : b.BreaksCheck check buf addr env) :
    ∃ kind data, buf = kind :: data ∧ PacketKind.tryFrom kind ≠ some .ping := by
  obtain ⟨payload, b', env', abort, hhandle, -⟩ := h
  by_cases hwf : WellFormed buf
  · obtain ⟨byte, kind, hhead, hkind, hkinds⟩ := hwf
    cases buf with
    | nil => cases hhead
    | cons kind' data =>
      cases hhead
      refine ⟨byte, data, rfl, ?_⟩
      rw [hkind]
      rcases hkinds with ⟨rfl | rfl | rfl, -⟩ | ⟨rfl, -⟩ <;> decide
  · obtain ⟨error, -, hreject⟩ := exists_rejection hwf
    rw [hreject] at hhandle
    cases hhandle

/-- **Where handling a datagram panics.**  After anything that the buffers of a connection did, a
datagram makes the program panic exactly if it is a part whose block of 256 parts and all below were
received of its packet, or the last one of all the parts there can be. -/
theorem handle_panics_iff (hb : b.AllFed) (buf : Bytes) (addr : SocketAddr) (env : Env) :
    (∃ abort, b.handle buf addr env = .error abort) ↔ b.Exhausts buf := by
  constructor
  · rintro ⟨abort, hpanic⟩
    by_cases hwf : WellFormed buf
    · rcases hwf.cases with ⟨last, id, i, payload, hi, rfl⟩ | ⟨id, i, rest, hi, rfl⟩ |
        ⟨id, rest, rfl⟩
      · rw [handle_part b addr env last id hi payload] at hpanic
        have hreceive : b.receiveBuffer.receive last id i payload addr env = .error abort := by
          unfold PacketBuffers.receive at hpanic
          cases hreceive : b.receiveBuffer.receive last id i payload addr env with
          | error abort' =>
            rw [hreceive] at hpanic
            cases hpanic
            rfl
          | ok received =>
            rw [hreceive] at hpanic
            cases hpanic
        obtain ⟨hsingle, packet, htouch, hpart⟩ :=
          ReceivePacketBuffer.receive_eq_error_iff.mp hreceive
        obtain ⟨parts, results, hbounded, hfeed⟩ := hb.touchEntry htouch
        have hexhausts := (ReassembledPacket.receive_panics_iff hfeed hbounded hi last payload).mp
          ⟨abort, hpart⟩
        unfold ReceivePacketBuffer.touchEntry at htouch
        split at htouch
        · rename_i entry hget
          exact ⟨last, id, i, payload, entry, packet, hi, hsingle, rfl, hget, htouch, hexhausts⟩
        · cases htouch
          exact absurd hexhausts (ReassembledPacket.not_exhausts_new i)
      · rw [handle_ack b addr env id hi rest] at hpanic
        cases hpanic
      · rw [handle_done b addr env id rest] at hpanic
        cases hpanic
    · obtain ⟨error, -, hreject⟩ := exists_rejection hwf
      rw [hreject] at hpanic
      cases hpanic
  · rintro ⟨last, id, i, payload, entry, packet, hi, hsingle, rfl, hget, hpacket, hexhausts⟩
    obtain ⟨parts, results, hbounded, hfeed⟩ := hb id entry packet hget hpacket
    obtain ⟨abort, hpanic⟩ :=
      (ReassembledPacket.receive_panics_iff hfeed hbounded hi last payload).mpr hexhausts
    have htouch : (b.receiveBuffer.touchEntry id env).packet = some packet := by
      unfold ReceivePacketBuffer.touchEntry
      rw [hget]
      exact hpacket
    have hreceive : b.receiveBuffer.receive last id i payload addr env = .error abort :=
      ReceivePacketBuffer.receive_eq_error_iff.mpr ⟨hsingle, packet, htouch, hpanic⟩
    refine ⟨abort, ?_⟩
    rw [handle_part b addr env last id hi payload, PacketBuffers.receive, hreceive]
    rfl

/-- A part that is pending is kept, whatever becomes of its ack. -/
theorem handle_pending (b : PacketBuffers) (addr : SocketAddr) (env : Env) {id : PacketId} {i : ℕ}
    {packet packet' : ReassembledPacket} (hi : i < seqIndexBound)
    (htouch : ∀ env, (b.receiveBuffer.touchEntry id env).packet = some packet)
    (hreceive : packet.receive false i [] = .ok (.pending, packet')) :
    ∃ result b' env', b.handle (partDatagram false id i []) addr env = .ok (result, b', env') ∧
      (∀ env, (b'.receiveBuffer.touchEntry id env).packet = some packet') ∧
      ∀ payload, result ≠ .ok (.received (.reassembled payload)) := by
  set entry : PacketIn := { b.receiveBuffer.touchEntry id env with packet := some packet' }
    with hentry
  set receiveBuffer : ReceivePacketBuffer :=
    { packets := b.receiveBuffer.packets.insert id entry } with hbuffer
  have hpart : ∃ result env', b.receiveBuffer.receive false id i [] addr env =
      .ok (result, receiveBuffer, env') ∧ ∀ payload, result ≠ .ok (.reassembled payload) := by
    unfold ReceivePacketBuffer.receive ReceivePacketBuffer.receivePart
    rw [if_neg (by simp)]
    dsimp only
    rw [htouch env]
    dsimp only
    rw [hreceive]
    rcases hack : Ultinet.ack id i addr env with ⟨error | sent, env'⟩
    · exact ⟨_, env', rfl, by simp⟩
    · exact ⟨_, env', rfl, by simp⟩
  obtain ⟨result, env', hpart, hnot⟩ := hpart
  refine ⟨(result.mapError .receive).map .received, { b with receiveBuffer }, env', ?_,
    fun env => ?_, fun payload heq => ?_⟩
  · rw [handle_part b addr env false id hi [], PacketBuffers.receive, hpart]
    rfl
  · unfold ReceivePacketBuffer.touchEntry
    rw [hbuffer, SortedMap.get?_insert_self]
  · cases result with
    | error error => cases heq
    | ok received =>
      cases heq
      exact hnot payload rfl

end PacketBuffers

end Ultinet
