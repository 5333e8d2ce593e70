import Ultinet.Packet.ChannelQueue

/-!
# Which part an ack marks

A `PacketQueue` drops acked parts from its front, but an ack is looked up at the position of its
sequence index.  Here a queue is run through any sequence of acks and sends, beside the set of the
indices that were acked.

`MarksNamed` demands that every ack concerns the part it names.  It holds of a run exactly if every
ack is given `InPlace`: before a part was dropped, or where it makes no difference
(`marksNamed_iff`).
-/

namespace Ultinet

namespace PacketQueue

/-! ## Runs of a queue -/

/-- A call to a queue. -/
inductive QueueOp
  | ack (seqIndex : ℕ)
  | sendUnacked (batchSize : NonZeroBatchSize) (addr : SocketAddr) (env : Env)

/-- The parts of a payload that were not acked are the ones to be sent, in order. -/
def Eligible (id : PacketId) (payload : Bytes) (q : PacketQueue) (acked : Finset ℕ) : Prop :=
  ∀ count, (q.unacked count).1 =
    (((List.range (chunkCount payload)).filter (· ∉ acked)).map (chunkDatagram id payload)).take
      count

/-- The part was pulled into the queue. -/
def Available (q : PacketQueue) (seqIndex : ℕ) : Prop :=
  seqIndex < q.firstUnacked + q.packets.length

/-- The result of an ack is that of the part it names. -/
structure AnswersNamed (q : PacketQueue) (acked : Finset ℕ) (seqIndex : ℕ) : Prop where
  duplicate : (q.ack seqIndex).1 = .ok true ↔ seqIndex ∈ acked
  first : (q.ack seqIndex).1 = .ok false ↔ q.Available seqIndex ∧ seqIndex ∉ acked
  rejected : ∀ error, (q.ack seqIndex).1 = .error error → ¬q.Available seqIndex

/-- The indices that were acked, with one more if its ack was accepted. -/
def ackedAfter (q : PacketQueue) (acked : Finset ℕ) (seqIndex : ℕ) : Finset ℕ :=
  match (q.ack seqIndex).1 with
  | .ok _ => insert seqIndex acked
  | .error _ => acked

/-- All along a run, the parts to be sent are those that were not acked, and every ack is answered
for the part it names. -/
def MarksNamed (id : PacketId) (payload : Bytes) : PacketQueue → Finset ℕ → List QueueOp → Prop
  | q, acked, [] => Eligible id payload q acked
  | q, acked, .ack seqIndex :: ops =>
      Eligible id payload q acked ∧ AnswersNamed q acked seqIndex ∧
        MarksNamed id payload (q.ack seqIndex).2 (q.ackedAfter acked seqIndex) ops
  | q, acked, .sendUnacked batchSize addr env :: ops =>
      Eligible id payload q acked ∧
        MarksNamed id payload (q.sendUnacked batchSize addr env).2.1 acked ops

/-- The position an ack is looked up at does not matter: nothing was dropped, or both the part it
names and the part at that position are acked, or it names a part that was not pulled. -/
def InPlace (q : PacketQueue) (seqIndex : ℕ) : Prop :=
  q.firstUnacked = 0 ∨ (Acked q seqIndex ∧ Acked q (q.firstUnacked + seqIndex)) ∨
    ¬q.Available seqIndex

/-- Every ack of a run is in place. -/
def AcksInPlace : PacketQueue → List QueueOp → Prop
  | _, [] => True
  | q, .ack seqIndex :: ops => q.InPlace seqIndex ∧ AcksInPlace (q.ack seqIndex).2 ops
  | q, .sendUnacked batchSize addr env :: ops =>
      AcksInPlace (q.sendUnacked batchSize addr env).2.1 ops

variable {id : PacketId} {payload : Bytes} {q : PacketQueue} {acked acked' : Finset ℕ} {i j : ℕ}

theorem MarksNamed.eligible {ops : List QueueOp} (h : MarksNamed id payload q acked ops) :
    Eligible id payload q acked := by
  cases ops with
  | nil => exact h
  | cons op ops =>
    cases op with
    | ack seqIndex => exact h.1
    | sendUnacked batchSize addr env => exact h.1

/-! ## The parts to be sent -/

/-- The unmarked buffers of a list of consecutive parts are the parts that were not acked. -/
theorem pending_eq (acked : Finset ℕ) {bs : List PacketBuffer} (start : ℕ)
    (hparts : bs.map unmark = (List.range' start bs.length).map (chunkBuffer id payload))
    (hmarks : ∀ j b, bs[j]? = some b → (b.acked = true ↔ start + j ∈ acked)) :
    (pending bs).map PacketBuffer.deref =
      ((List.range' start bs.length).filter (· ∉ acked)).map (chunkDatagram id payload) := by
  induction bs generalizing start with
  | nil => rfl
  | cons b bs ih =>
    rw [List.length_cons, List.range'_succ, List.map_cons, List.map_cons, List.cons.injEq] at hparts
    obtain ⟨hb, hbs⟩ := hparts
    have hrest := ih (start + 1) hbs fun j b' hj => by
      have := hmarks (j + 1) b' hj
      rwa [show start + (j + 1) = start + 1 + j by omega] at this
    have hmark := hmarks 0 b rfl
    have hderef : b.deref = chunkDatagram id payload start := by
      rw [← deref_unmark, hb, deref_chunkBuffer]
    rw [List.length_cons, List.range'_succ]
    by_cases hacked : start ∈ acked
    · have hskip : b.acked = true := hmark.mpr hacked
      have hpending : pending (b :: bs) = pending bs := List.filter_cons_of_neg (by simp [hskip])
      rw [hpending, List.filter_cons_of_neg (by simpa using hacked)]
      exact hrest
    · have hkeep : ¬b.acked = true := fun h => hacked (hmark.mp h)
      have hpending : pending (b :: bs) = b :: pending bs :=
        List.filter_cons_of_pos (by simpa using hkeep)
      rw [hpending, List.filter_cons_of_pos (by simpa using hacked), List.map_cons, List.map_cons,
        hrest, hderef]

/-- The parts to be sent are those that were not acked. -/
theorem Holds.eligible (hq : Holds id payload q) (hacked : ∀ i, Acked q i ↔ i ∈ acked) :
    Eligible id payload q acked := by
  intro count
  have hbuffers := hq.buffers
  have hlength := congrArg List.length hbuffers
  rw [List.length_map, List.length_drop, length_chunkBuffers] at hlength
  have hle := hq.firstUnacked_le
  have hrange : List.range (chunkCount payload) = List.range q.firstUnacked ++
      List.range' q.firstUnacked (q.packets ++ q.rx.getD []).length := by
    have happend := List.range'_append_1 (s := 0) (m := q.firstUnacked)
      (n := chunkCount payload - q.firstUnacked)
    rw [Nat.zero_add, Nat.add_sub_cancel' hle] at happend
    rw [hlength, List.range_eq_range', List.range_eq_range', happend]
  have hdropped : (List.range q.firstUnacked).filter (· ∉ acked) = [] := by
    rw [List.filter_eq_nil_iff]
    intro i hi
    simpa using (hacked i).mp (BitWindow.mem_of_lt (List.mem_range.mp hi))
  -- whether the channel is pulled before or after the acked parts are skipped does not matter
  have hunacked : (q.unacked count).1 =
      ((pending (q.packets ++ q.rx.getD [])).map PacketBuffer.deref).take count := by
    rw [unacked_eq_loaded hq.pulled, loaded_unacked, parts]
  rw [hunacked, hrange, List.filter_append, hdropped, List.nil_append,
    pending_eq acked q.firstUnacked]
  · rw [hbuffers, chunkBuffers, ← List.map_drop, hrange, List.drop_append_of_le_length (by simp)]
    simp
  · intro j b hj
    by_cases hpulled : j < q.packets.length
    · rw [List.getElem?_append_left hpulled] at hj
      rw [← hacked, acked_iff_of_getElem? hj]
    · -- what is still in the channel is not acked
      rw [List.getElem?_append_right (by omega)] at hj
      have hb := hq.pulled b (List.mem_of_getElem? hj)
      rw [← hacked, Acked, BitWindow.mem_iff_of_le (by omega),
        List.getElem?_eq_none (by rw [List.length_map]; omega)]
      simp [hb]

theorem chunkDatagram_injective (hi : i < seqIndexBound) (hj : j < seqIndexBound)
    (h : chunkDatagram id payload i = chunkDatagram id payload j) : i = j := by
  have hread : ∀ k < seqIndexBound,
      (slice (chunkDatagram id payload k) (packetKindSize + packetIdSize)
        (packetKindSize + packetIdSize + seqIndexSize)).bind SeqIndex.fromLeBytes = some k := by
    intro k hk
    have hsplit : chunkDatagram id payload k =
        [(if k + 1 = chunkCount payload then PacketKind.lastPart else PacketKind.part).toByte] ++
          id.bytes ++ (SeqIndex.toLeBytes k ++ chunkPayload payload k) := by
      simp [chunkDatagram, partDatagram, partHeader]
    rw [hsplit, ← List.append_assoc, slice_append _ (SeqIndex.toLeBytes k)]
    · exact SeqIndex.fromLeBytes_toLeBytes hk
    · simp [id.length_bytes, packetKindSize, packetIdSize]
    · simp [id.length_bytes, packetKindSize, packetIdSize, seqIndexSize]
  have := hread i hi
  rw [h, hread j hj] at this
  exact (Option.some.inj this).symm

/-- The parts to be sent tell which parts were not acked. -/
theorem Eligible.mem_iff (hn : chunkCount payload ≤ seqIndexBound)
    (h : Eligible id payload q acked) (h' : Eligible id payload q acked')
    (hi : i < chunkCount payload) : i ∈ acked ↔ i ∈ acked' := by
  have hmem : ∀ acked : Finset ℕ, Eligible id payload q acked →
      (chunkDatagram id payload i ∈ (q.unacked (chunkCount payload)).1 ↔ i ∉ acked) := by
    intro acked hacked
    rw [hacked, List.take_of_length_le]
    · constructor
      · intro hin
        obtain ⟨j, hj, heq⟩ := List.mem_map.mp hin
        obtain ⟨hj, hnot⟩ := List.mem_filter.mp hj
        rw [chunkDatagram_injective (by omega) ((List.mem_range.mp hj).trans_le hn) heq.symm]
        simpa using hnot
      · intro hnot
        exact List.mem_map_of_mem (List.mem_filter.mpr ⟨List.mem_range.mpr hi, by simpa using hnot⟩)
    · rw [List.length_map]
      exact (List.length_filter_le _ _).trans_eq List.length_range
  exact not_iff_not.mp ((hmem acked h).symm.trans (hmem acked' h'))

/-! ## One ack -/

/-- An acked part was pulled. -/
theorem Acked.available (h : Acked q i) : q.Available i := by
  rcases h with hlt | ⟨hle, hbit⟩
  · exact hlt.trans_le (Nat.le_add_right _ _)
  · have := (List.getElem?_eq_some_iff.mp hbit).1
    rw [List.length_map] at this
    unfold Available
    omega

/-- An ack that is in place is answered for the part it names, and marks that part. -/
theorem InPlace.ack {seqIndex : ℕ} (hq : Holds id payload q)
    (hacked : ∀ i, Acked q i ↔ i ∈ acked) (hplace : q.InPlace seqIndex) :
    AnswersNamed q acked seqIndex ∧ Holds id payload (q.ack seqIndex).2 ∧
      ∀ i, Acked (q.ack seqIndex).2 i ↔ i ∈ q.ackedAfter acked seqIndex := by
  unfold ackedAfter
  rcases ack_cases hq seqIndex with
    ⟨hnone, hack⟩ | ⟨b, hget, hmark, hack⟩ | ⟨b, hget, hmark, q', hack, hq', hacked'⟩
  · -- rejected, so the part is not available
    have hlen := List.getElem?_eq_none_iff.mp hnone
    have hnot : ¬q.Available seqIndex := by
      rcases hplace with hzero | ⟨-, hback⟩ | hnot
      · unfold Available
        omega
      · have := hback.available
        unfold Available at this
        omega
      · exact hnot
    have hmem : seqIndex ∉ acked := fun hin => hnot ((hacked seqIndex).mpr hin).available
    rw [hack]
    exact ⟨⟨by simp [hack, hmem], by simp [hack, hnot], fun _ _ => hnot⟩, hq, hacked⟩
  · -- a duplicate
    have hback : Acked q (q.firstUnacked + seqIndex) := (acked_iff_of_getElem? hget).mpr hmark
    have hnamed : Acked q seqIndex := by
      rcases hplace with hzero | ⟨hnamed, -⟩ | hnot
      · rwa [hzero, Nat.zero_add] at hback
      · exact hnamed
      · have := (List.getElem?_eq_some_iff.mp hget).1
        exact absurd (show q.Available seqIndex by unfold Available; omega) hnot
    have hmem := (hacked seqIndex).mp hnamed
    rw [hack]
    refine ⟨⟨by simp [hack, hmem], by simp [hack, hmem], by simp [hack]⟩, hq, fun i => ?_⟩
    rw [hacked, Finset.insert_eq_of_mem hmem]
  · -- the part is marked, so nothing was dropped before
    have hback : ¬Acked q (q.firstUnacked + seqIndex) := by
      rw [acked_iff_of_getElem? hget]
      simp [hmark]
    have hlt := (List.getElem?_eq_some_iff.mp hget).1
    have havailable : q.Available seqIndex := by
      unfold Available
      omega
    have hzero : q.firstUnacked = 0 := by
      rcases hplace with hzero | ⟨-, hback'⟩ | hnot
      · exact hzero
      · exact absurd hback' hback
      · exact absurd havailable hnot
    rw [hzero, Nat.zero_add] at hback hacked'
    have hmem : seqIndex ∉ acked := fun hin => hback ((hacked seqIndex).mpr hin)
    rw [hack]
    refine ⟨⟨by simp [hack, hmem], by simp [hack, hmem, havailable], by simp [hack]⟩, hq',
      fun i => ?_⟩
    rw [hacked', hacked, Finset.mem_insert]

/-- An ack that is not in place is answered for another part, or marks another part. -/
theorem not_eligible_of_not_inPlace {seqIndex : ℕ} (hn : chunkCount payload ≤ seqIndexBound)
    (hq : Holds id payload q) (hacked : ∀ i, Acked q i ↔ i ∈ acked)
    (hplace : ¬q.InPlace seqIndex) (hanswers : AnswersNamed q acked seqIndex) :
    ¬Eligible id payload (q.ack seqIndex).2 (q.ackedAfter acked seqIndex) := by
  unfold InPlace at hplace
  obtain ⟨hdropped, hrest⟩ := not_or.mp hplace
  obtain ⟨hboth, havailable⟩ := not_or.mp hrest
  rw [not_not] at havailable
  rcases ack_cases hq seqIndex with
    ⟨-, hack⟩ | ⟨b, hget, hmark, hack⟩ | ⟨b, hget, hmark, q', hack, hq', hacked'⟩
  · exact absurd havailable (hanswers.rejected ⟨seqIndex⟩ (by rw [hack]))
  · -- answered as a duplicate, so the part is acked, and so is the one at the position
    have hmem := hanswers.duplicate.mp (by rw [hack])
    exact absurd ⟨(hacked seqIndex).mpr hmem, (acked_iff_of_getElem? hget).mpr hmark⟩ hboth
  · -- the part that is marked lies behind the part that is named
    have hnot := (hanswers.first.mp (by rw [hack])).2
    have hlt : q.firstUnacked + seqIndex < chunkCount payload := (hq.part_of_getElem? hget).1
    unfold ackedAfter
    rw [hack]
    intro heligible
    have hmarked : ∀ i, Acked q' i ↔ i ∈ insert (q.firstUnacked + seqIndex) acked := by
      intro i
      rw [hacked', hacked, Finset.mem_insert]
    have := (heligible.mem_iff hn (hq'.eligible hmarked) (i := seqIndex) (by omega)).mp
      (Finset.mem_insert_self _ _)
    rcases Finset.mem_insert.mp this with heq | hin
    · omega
    · exact hnot hin

/-! ## Runs -/

/-- A run marks the named parts exactly if its acks are in place, from any state on. -/
theorem Holds.marks_iff (hn : chunkCount payload ≤ seqIndexBound) (ops : List QueueOp)
    (hq : Holds id payload q) (hacked : ∀ i, Acked q i ↔ i ∈ acked) :
    MarksNamed id payload q acked ops ↔ AcksInPlace q ops := by
  have heligible := hq.eligible hacked
  induction ops generalizing q acked with
  | nil => exact iff_of_true heligible trivial
  | cons op ops ih =>
    cases op with
    | sendUnacked batchSize addr env =>
      obtain ⟨hpull, hacked'⟩ := hq.pull batchSize.val
      have hacked'' : ∀ i, Acked (q.pull batchSize.val) i ↔ i ∈ acked := by
        intro i
        rw [hacked', hacked]
      have hrest := ih hpull hacked'' (hpull.eligible hacked'')
      exact (and_iff_right heligible).trans hrest
    | ack seqIndex =>
      by_cases hplace : q.InPlace seqIndex
      · obtain ⟨hanswers, hq', hacked'⟩ := hplace.ack hq hacked
        have hrest := ih hq' hacked' (hq'.eligible hacked')
        refine (and_iff_right heligible).trans ((and_iff_right hanswers).trans ?_)
        exact hrest.trans (and_iff_right hplace).symm
      · refine iff_of_false ?_ fun hin => hplace hin.1
        rintro ⟨-, hanswers, hrest⟩
        exact not_eligible_of_not_inPlace hn hq hacked hplace hanswers hrest.eligible

/-- **Acks.**  From a queue with all parts of a payload on, in any sequence of acks and sends, every
ack concerns the part it names if and only if every ack is in place. -/
theorem marksNamed_iff {packet : SerializedPacket}
    (h : packet = .vec (chunkBuffers id payload) ∨ packet = .channel (chunkBuffers id payload))
    (hn : chunkCount payload ≤ 2 ^ 32) (ops : List QueueOp) :
    MarksNamed id payload (new packet) ∅ ops ↔ AcksInPlace (new packet) ops := by
  obtain ⟨hnew, hnone⟩ := holds_new h
  exact hnew.marks_iff hn ops fun i => iff_of_false (hnone i) (Finset.notMem_empty i)

/-- A payload of 500 bytes takes two parts. -/
theorem chunkCount_twoParts : chunkCount (List.replicate 500 0) = 2 := by
  rw [chunkCount, Chunking.count, List.length_replicate]
  decide

/-- These are its buffers. -/
theorem chunkBuffers_twoParts : chunkBuffers (.replicate 1) (List.replicate 500 0) =
    [chunkBuffer (.replicate 1) (List.replicate 500 0) 0,
      chunkBuffer (.replicate 1) (List.replicate 500 0) 1] := by
  rw [chunkBuffers, chunkCount_twoParts]
  rfl

/-- For instance, the second of two parts is acked, and then the first one. -/
theorem marksNamed_two_parts : ∃ payload, chunkCount payload = 2 ∧
    AcksInPlace (new (.vec (chunkBuffers (.replicate 1) payload))) [.ack 1, .ack 0] ∧
      MarksNamed (.replicate 1) payload (new (.vec (chunkBuffers (.replicate 1) payload))) ∅
        [.ack 1, .ack 0] := by
  have hsecond : ∀ b b' : PacketBuffer, b.acked = false → b'.acked = false →
      ((new (.vec [b, b'])).ack 1).2.firstUnacked = 0 := by
    intro b b' hb hb'
    simp [new, ack, List.findIdx_cons, hb, hb']
  have hplace : AcksInPlace (new (.vec (chunkBuffers (.replicate 1) (List.replicate 500 0))))
      [.ack 1, .ack 0] := by
    rw [chunkBuffers_twoParts]
    exact ⟨Or.inl rfl, Or.inl (hsecond _ _ rfl rfl), trivial⟩
  refine ⟨List.replicate 500 0, chunkCount_twoParts, hplace, ?_⟩
  exact (marksNamed_iff (Or.inl rfl) (by rw [chunkCount_twoParts]; norm_num) _).mpr hplace

/-- The ack of the second of two parts is rejected once the first one was dropped. -/
theorem ack_second_of_two : ∃ payload, chunkCount payload = 2 ∧
    ¬MarksNamed (.replicate 1) payload (new (.vec (chunkBuffers (.replicate 1) payload))) ∅
      [.ack 0, .ack 1] := by
  refine ⟨List.replicate 500 0, chunkCount_twoParts, ?_⟩
  rintro ⟨-, -, -, hanswers, -⟩
  have hfirst : ∀ b b' : PacketBuffer, b.acked = false → b'.acked = false →
      ((new (.vec [b, b'])).ack 0).2 = ⟨[b'], 1, none⟩ := by
    intro b b' hb hb'
    simp [new, ack, List.findIdx_cons, hb, hb']
  rw [chunkBuffers_twoParts, hfirst _ _ rfl rfl] at hanswers
  exact hanswers.rejected ⟨1⟩ rfl (Nat.lt_succ_self 1)

end PacketQueue

end Ultinet
