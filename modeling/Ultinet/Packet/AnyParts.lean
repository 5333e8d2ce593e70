import Ultinet.Packet.Receive

/-!
# Receiving arbitrary parts

What a `ReassembledPacket` does with any sequence of parts, whoever sends them.  `feed` gives it one
part after the other; `Tracks parts results p` says what it has become after the parts `parts`.

Two things go wrong.  A part that is received again panics once its bit was drained, which is when
every part up to the end of its block of 256 was received (`receive_again_iff`).  And a packet counts
as complete as soon as the number of its parts reaches the index of the last one, whether they lie
below that index or not (`reportsComplete_iff`).
-/

namespace Ultinet

open BitWindow Chunking

/-- A part as it arrives. -/
structure Part where
  last : Bool
  seqIndex : ℕ
  payload : Bytes
  deriving DecidableEq

namespace ReassembledPacket

/-! ## One part -/

/-- The packet has received a part with this index. -/
def Has (p : ReassembledPacket) (i : ℕ) : Prop :=
  Mem p.firstPending p.receivedChunks i

variable {p p' : ReassembledPacket} {last : Bool} {i : ℕ} {payload : Bytes}
  {result : ReceivedPacket}

/-- A part that was received before and whose bit was drained: the offset underflows. -/
theorem receive_drained (last : Bool) (payload : Bytes) (h : i < p.firstPending) :
    p.receive last i payload = .error (.panic "attempt to subtract with overflow") := by
  simp only [receive, if_pos h]

/-- A part that was received before and whose bit is still there: nothing but the index of the last
part may change. -/
theorem receive_known (last : Bool) (payload : Bytes) (hle : p.firstPending ≤ i) (h : p.Has i) :
    p.receive last i payload =
      .ok (.duplicate, { p with maxIndex := if last then some i else p.maxIndex }) := by
  have hold : p.receivedChunks[i - p.firstPending]? = some true := (mem_iff_of_le hle).mp h
  have hlt := (List.getElem?_eq_some_iff.mp hold).1
  have hgrown : grow false (i - p.firstPending + 1) p.receivedChunks = p.receivedChunks :=
    if_neg (by omega)
  simp only [receive, if_neg (not_lt.mpr hle), hgrown, if_pos hold]

/-- What a new part does. -/
structure ReceivesNew (p : ReassembledPacket) (last : Bool) (i : ℕ) (payload : Bytes)
    (result : ReceivedPacket) (p' : ReassembledPacket) : Prop where
  payload : p'.payload = place 0 (partPacketPayloadSize * i) payload p.payload
  has : ∀ j, p'.Has j ↔ j = i ∨ p.Has j
  aligned : 256 ∣ p.firstPending → 256 ∣ p'.firstPending
  missing : ∃ j < p'.firstPending + 256, ¬p'.Has j
  maxIndex : p'.maxIndex = if last then some i else p.maxIndex
  outcome : (result = .reassembled p'.payload ∧ some p.receivedCount = p'.maxIndex ∧
      p'.receivedCount = p.receivedCount) ∨
    (result = .pending ∧ some p.receivedCount ≠ p'.maxIndex ∧
      p'.receivedCount = p.receivedCount + 1)

/-- After draining, one of the first 256 bits is not set. -/
theorem exists_not_mem_drained (base : ℕ) (bits : List Bool) :
    ∃ j < base + byteBoundary bits + 256,
      ¬Mem (base + byteBoundary bits) (bits.drop (byteBoundary bits)) j := by
  have hdiv := Nat.div_add_mod (bits.findIdx fun received => !received) 256
  have hmod := Nat.mod_lt (bits.findIdx fun received => !received) (by decide : 0 < 256)
  refine ⟨base + bits.findIdx fun received => !received, ?_, ?_⟩
  · unfold byteBoundary
    omega
  · rw [mem_drained, mem_iff_of_le (Nat.le_add_right _ _), Nat.add_sub_cancel_left]
    intro hbit
    obtain ⟨hlt, hget⟩ := List.getElem?_eq_some_iff.mp hbit
    have := List.findIdx_getElem (p := fun received => !received) (w := hlt)
    simp [hget] at this

/-- Receiving a part that was not received before. -/
theorem receive_unknown (hnew : ¬p.Has i) (h : p.receive last i payload = .ok (result, p')) :
    ReceivesNew p last i payload result p' := by
  have hle : p.firstPending ≤ i := by
    by_contra hlt
    exact hnew (mem_of_lt (by omega))
  have hbit : ¬(p.grown i)[i - p.firstPending]? = some true := by
    rw [← mem_iff_of_le hle, mem_grown]
    exact hnew
  set bits := (p.grown i).set (i - p.firstPending) true with hbits
  have hmem : ∀ j, Mem (p.firstPending + byteBoundary bits) (bits.drop (byteBoundary bits)) j ↔
      j = i ∨ p.Has j := by
    intro j
    rw [mem_drained, hbits, mem_set hle (lt_length_grown p i), mem_grown]
    exact Iff.rfl
  have haligned : 256 ∣ p.firstPending → 256 ∣ p.firstPending + byteBoundary bits :=
    fun hdvd => Dvd.dvd.add hdvd (Dvd.intro_left _ rfl)
  have hmissing := exists_not_mem_drained p.firstPending bits
  simp only [receive, if_neg (not_lt.mpr hle)] at h
  rw [show grow false (i - p.firstPending + 1) p.receivedChunks = p.grown i from rfl, if_neg hbit,
    ← hbits] at h
  by_cases hlarge : seqIndexBound ≤ byteBoundary bits
  · rw [if_pos hlarge] at h
    cases h
  rw [if_neg hlarge] at h
  by_cases hsum : p.firstPending + byteBoundary bits < seqIndexBound
  · rw [SeqIndex.add_eq hsum] at h
    simp only [bind, Except.bind, pure, Except.pure] at h
    by_cases hcount : some p.receivedCount = if last then some i else p.maxIndex
    · rw [if_pos hcount] at h
      cases h
      exact ⟨rfl, hmem, haligned, hmissing, rfl, Or.inl ⟨rfl, hcount, rfl⟩⟩
    · rw [if_neg hcount] at h
      by_cases hcarry : p.receivedCount + 1 < seqIndexBound
      · rw [SeqIndex.add_eq hcarry] at h
        cases h
        exact ⟨rfl, hmem, haligned, hmissing, rfl, Or.inr ⟨rfl, hcount, rfl⟩⟩
      · rw [SeqIndex.add, if_neg hcarry] at h
        cases h
  · rw [SeqIndex.add, if_neg hsum] at h
    cases h

/-! ## Sequences of parts -/

/-- Give one part after the other to a packet.  The result is what became of each of them. -/
def feed (p : ReassembledPacket) : List Part → Exec (List ReceivedPacket × ReassembledPacket)
  | [] => .ok ([], p)
  | part :: parts => do
      let (result, p) ← p.receive part.last part.seqIndex part.payload
      let (results, p) ← feed p parts
      return (result :: results, p)

/-- Giving one part more. -/
theorem feed_append (p : ReassembledPacket) (parts : List Part) (part : Part) :
    p.feed (parts ++ [part]) = do
      let (results, p) ← p.feed parts
      let (result, p) ← p.receive part.last part.seqIndex part.payload
      return (results ++ [result], p) := by
  induction parts generalizing p with
  | nil =>
    simp only [List.nil_append, feed, bind, Except.bind, pure, Except.pure]
  | cons first parts ih =>
    simp only [List.cons_append, feed, bind, Except.bind]
    cases p.receive first.last first.seqIndex first.payload with
    | error abort => rfl
    | ok received =>
      obtain ⟨result, q⟩ := received
      dsimp only
      rw [ih]
      simp only [bind, Except.bind, pure, Except.pure]
      cases q.feed parts with
      | error abort => rfl
      | ok fed =>
        obtain ⟨results, q'⟩ := fed
        dsimp only
        cases q'.receive part.last part.seqIndex part.payload with
        | error abort => rfl
        | ok received => rfl

/-- The last step of a sequence of parts. -/
theorem feed_append_ok {parts : List Part} {part : Part} {results : List ReceivedPacket}
    (h : new.feed (parts ++ [part]) = .ok (results, p')) :
    ∃ results' p result, new.feed parts = .ok (results', p) ∧
      p.receive part.last part.seqIndex part.payload = .ok (result, p') ∧
      results = results' ++ [result] := by
  rw [feed_append] at h
  simp only [bind, Except.bind] at h
  cases hfeed : new.feed parts with
  | error abort => simp [hfeed] at h
  | ok fed =>
    obtain ⟨results', p⟩ := fed
    rw [hfeed] at h
    dsimp only at h
    cases hreceive : p.receive part.last part.seqIndex part.payload with
    | error abort => simp [hreceive] at h
    | ok received =>
      obtain ⟨result, q⟩ := received
      rw [hreceive] at h
      cases h
      exact ⟨results', p, result, rfl, hreceive, rfl⟩

/-- The indices of the parts that were received. -/
def received (parts : List Part) : Finset ℕ :=
  (parts.map Part.seqIndex).toFinset

/-- The index that the most recent last part has announced. -/
def lastIndex (parts : List Part) : Option ℕ :=
  ((parts.filter Part.last).getLast?).map Part.seqIndex

/-- The payload with which a chunk came first. -/
def chunkOf (parts : List Part) (i : ℕ) : Bytes :=
  ((parts.find? fun part => part.seqIndex = i).map Part.payload).getD []

section History

variable (parts : List Part) (part : Part)

@[simp] theorem mem_received : i ∈ received parts ↔ ∃ part ∈ parts, part.seqIndex = i := by
  simp [received]

theorem received_append :
    received (parts ++ [part]) = insert part.seqIndex (received parts) := by
  ext j
  simp [received]

theorem lastIndex_append :
    lastIndex (parts ++ [part]) = if part.last then some part.seqIndex else lastIndex parts := by
  unfold lastIndex
  rw [List.filter_append]
  cases hlast : part.last <;> simp [hlast]

/-- The first payload of a chunk stays. -/
theorem chunkOf_append_of_mem {parts : List Part} (h : i ∈ received parts) :
    chunkOf (parts ++ [part]) i = chunkOf parts i := by
  obtain ⟨first, hfirst, hindex⟩ := (mem_received parts).mp h
  unfold chunkOf
  rw [List.find?_append]
  cases hfind : parts.find? fun part => part.seqIndex = i with
  | none => exact absurd (by simpa using hindex) (List.find?_eq_none.mp hfind first hfirst)
  | some found => rfl

theorem chunkOf_append_self {parts : List Part} (h : part.seqIndex ∉ received parts) :
    chunkOf (parts ++ [part]) part.seqIndex = part.payload := by
  have hfind : (parts.find? fun earlier => earlier.seqIndex = part.seqIndex) = none := by
    rw [List.find?_eq_none]
    intro earlier hearlier heq
    exact h ((mem_received parts).mpr ⟨earlier, hearlier, by simpa using heq⟩)
  simp [chunkOf, List.find?_append, hfind]

theorem length_chunkOf_le {parts : List Part} {n : ℕ}
    (h : ∀ part ∈ parts, part.payload.length ≤ n) (i : ℕ) : (chunkOf parts i).length ≤ n := by
  unfold chunkOf
  cases hfind : parts.find? fun part => part.seqIndex = i with
  | none => exact Nat.zero_le _
  | some found => exact h found (List.mem_of_find?_eq_some hfind)

end History

/-- What a packet has become after some parts. -/
structure Tracks (parts : List Part) (p : ReassembledPacket) : Prop where
  has : ∀ i, p.Has i ↔ i ∈ received parts
  aligned : 256 ∣ p.firstPending
  missing : ∃ j < p.firstPending + 256, ¬p.Has j
  maxIndex : p.maxIndex = lastIndex parts
  stores : (∀ part ∈ parts, part.payload.length ≤ 491) →
    Stores partPacketPayloadSize (chunkOf parts) (received parts) p.payload

theorem tracks_new : Tracks [] new where
  has := by simp [Has, new]
  aligned := Dvd.intro 0 rfl
  missing := ⟨0, by decide, by simp [Has, new]⟩
  maxIndex := rfl
  stores := fun _ => stores_empty _ _

/-- One part more. -/
theorem Tracks.receive {parts : List Part} {part : Part} (h : Tracks parts p)
    (hreceive : p.receive part.last part.seqIndex part.payload = .ok (result, p')) :
    Tracks (parts ++ [part]) p' := by
  by_cases hknown : part.seqIndex ∈ received parts
  · have hhas := (h.has _).mpr hknown
    have hle : p.firstPending ≤ part.seqIndex := by
      by_contra hlt
      rw [receive_drained _ _ (by omega)] at hreceive
      cases hreceive
    rw [receive_known _ _ hle hhas] at hreceive
    cases hreceive
    have hsame : received (parts ++ [part]) = received parts := by
      rw [received_append, Finset.insert_eq_of_mem hknown]
    refine ⟨fun i => ?_, h.aligned, h.missing, ?_, fun hlen => ?_⟩
    · rw [hsame]
      exact h.has i
    · rw [lastIndex_append, ← h.maxIndex]
    · rw [hsame]
      refine (h.stores fun part hpart => hlen part (List.mem_append_left _ hpart)).congr ?_
      exact fun i hi => (chunkOf_append_of_mem part hi).symm
  · have hnew := receive_unknown (fun hhas => hknown ((h.has _).mp hhas)) hreceive
    refine ⟨fun i => ?_, hnew.aligned h.aligned, hnew.missing, ?_, fun hlen => ?_⟩
    · rw [hnew.has, received_append, Finset.mem_insert, h.has]
    · rw [hnew.maxIndex, lastIndex_append, ← h.maxIndex]
    · have hstores := (h.stores fun part hpart => hlen part (List.mem_append_left _ hpart)).congr
        fun i hi => (chunkOf_append_of_mem part hi).symm
      have hplaced := hstores.place (0 : UInt8) hknown fun k _ => length_chunkOf_le hlen k
      rw [chunkOf_append_self part hknown] at hplaced
      rw [hnew.payload, received_append]
      exact hplaced

/-- The packet after any sequence of parts. -/
theorem tracks_feed {parts : List Part} {results : List ReceivedPacket}
    (h : new.feed parts = .ok (results, p)) : Tracks parts p := by
  induction parts using List.reverseRecOn generalizing results p with
  | nil =>
    cases h
    exact tracks_new
  | append_singleton parts part ih =>
    obtain ⟨results', q, result, hfeed, hreceive, -⟩ := feed_append_ok h
    exact (ih hfeed).receive hreceive

/-! ## Receiving a part again -/

/-- Whether the bit of a part was drained depends on the parts received only: it was if the block of
256 parts it belongs to and everything below it are complete. -/
theorem Tracks.lt_firstPending_iff {parts : List Part} (h : Tracks parts p) (i : ℕ) :
    i < p.firstPending ↔ ∀ j < 256 * (i / 256 + 1), j ∈ received parts := by
  obtain ⟨blocks, hblocks⟩ := h.aligned
  constructor
  · intro hlt j hj
    refine (h.has j).mp (mem_of_lt ?_)
    omega
  · intro hall
    by_contra hge
    obtain ⟨j, hj, hnot⟩ := h.missing
    refine hnot ((h.has j).mpr (hall j ?_))
    omega

/-- The parts of a payload, in some order. -/
def honestParts (payload : Bytes) (is : List ℕ) : List Part :=
  is.map fun i => ⟨i + 1 = chunkCount payload, i, chunkPayload payload i⟩

theorem mem_received_honestParts (payload : Bytes) (is : List ℕ) :
    i ∈ received (honestParts payload is) ↔ i ∈ is := by
  simp [honestParts]

/-- Once the last part was received, its index is known. -/
theorem lastIndex_honestParts (payload : Bytes) {is : List ℕ} (hi : i ∈ is)
    (hlast : i + 1 = chunkCount payload) :
    lastIndex (honestParts payload is) = some i := by
  induction is using List.reverseRecOn with
  | nil => cases hi
  | append_singleton is k ih =>
    have happend : honestParts payload (is ++ [k]) =
        honestParts payload is ++ [⟨k + 1 = chunkCount payload, k, chunkPayload payload k⟩] := by
      simp [honestParts]
    rw [happend, lastIndex_append]
    dsimp only
    by_cases hk : k + 1 = chunkCount payload
    · rw [if_pos (by simpa using hk)]
      congr 1
      omega
    · rw [if_neg (by simpa using hk)]
      refine ih ((List.mem_append.mp hi).resolve_right fun hmem => hk ?_)
      rw [← List.mem_singleton.mp hmem]
      exact hlast

/-- **A part again.**  After any parts of a packet in any order, receiving one of them once more is a
duplicate that changes nothing, unless all parts up to the end of its block of 256 were received. -/
theorem receive_again_iff (payload : Bytes) (is : List ℕ) {results : List ReceivedPacket}
    (hreach : new.feed (honestParts payload is) = .ok (results, p)) (hi : i ∈ is) :
    p.receive (i + 1 = chunkCount payload) i (chunkPayload payload i) = .ok (.duplicate, p) ↔
      ¬∀ j < 256 * (i / 256 + 1), j ∈ is := by
  have htracks := tracks_feed hreach
  have hdrained := htracks.lt_firstPending_iff i
  simp only [mem_received_honestParts] at hdrained
  have hhas : p.Has i := (htracks.has i).mpr ((mem_received_honestParts payload is).mpr hi)
  rw [← hdrained]
  constructor
  · intro hreceive hlt
    rw [receive_drained _ _ hlt] at hreceive
    cases hreceive
  · intro hle
    rw [receive_known _ _ (not_lt.mp hle) hhas]
    congr 3
    by_cases hlast : i + 1 = chunkCount payload
    · rw [if_pos (by simpa using hlast), htracks.maxIndex, lastIndex_honestParts payload hi hlast]
    · rw [if_neg (by simpa using hlast)]

/-- For instance, the last one of three parts comes first, a second time after the first part, and then
a third time. -/
theorem receive_again_three_parts : ∃ payload results p, chunkCount payload = 3 ∧
    new.feed (honestParts payload [2, 0, 2]) = .ok (results, p) ∧
      p.receive (2 + 1 = chunkCount payload) 2 (chunkPayload payload 2) = .ok (.duplicate, p) := by
  have hfeed : (new.feed (honestParts (List.replicate 983 1) [2, 0, 2])).toOption.isSome = true := by
    decide +kernel
  obtain ⟨⟨results, p⟩, hp⟩ := Option.isSome_iff_exists.mp hfeed
  have hreach := toOption_eq_some.mp hp
  refine ⟨List.replicate 983 1, results, p, by decide +kernel, hreach, ?_⟩
  refine (receive_again_iff (List.replicate 983 1) [2, 0, 2] hreach (by simp)).mpr fun hall => ?_
  exact absurd (hall 1 (by omega)) (by decide)

/-- Receiving every part at most once does not panic. -/
theorem exists_feed {payload : Bytes} (hn : chunkCount payload < seqIndexBound) {is : List ℕ}
    (hnodup : is.Nodup) (his : ∀ i ∈ is, i < chunkCount payload) :
    ∃ results p, new.feed (honestParts payload is) = .ok (results, p) ∧
      Reassembles payload is.toFinset p := by
  induction is using List.reverseRecOn with
  | nil => exact ⟨[], new, rfl, reassembles_new payload⟩
  | append_singleton is i ih =>
    obtain ⟨hnodup', hi⟩ := List.nodup_append.mp hnodup |>.imp_right fun h => h.2
    obtain ⟨results, p, hfeed, hp⟩ := ih hnodup' fun j hj => his j (List.mem_append_left _ hj)
    have hnew : i ∉ is.toFinset := fun hmem =>
      hi i (List.mem_toFinset.mp hmem) i (List.mem_singleton_self i) rfl
    obtain ⟨p', hreceive, hp'⟩ := receive_new hp hn (his i (by simp)) hnew
    have happend : honestParts payload (is ++ [i]) =
        honestParts payload is ++ [⟨i + 1 = chunkCount payload, i, chunkPayload payload i⟩] := by
      simp [honestParts]
    refine ⟨results ++ [if insert i is.toFinset = Finset.range (chunkCount payload)
      then .reassembled payload else .pending], p', ?_, ?_⟩
    · rw [happend, feed_append, hfeed]
      simp only [bind, Except.bind, hreceive]
      rfl
    · rwa [List.toFinset_append, List.toFinset_cons, List.toFinset_nil, insert_empty_eq,
        Finset.union_comm, ← Finset.insert_eq]

/-- Once the first 256 of 257 parts were received, receiving the first one again panics. -/
theorem receive_again_panics : ∃ payload is results p, (∀ i ∈ is, i < chunkCount payload) ∧
    new.feed (honestParts payload is) = .ok (results, p) ∧ 0 ∈ is ∧
      p.receive (0 + 1 = chunkCount payload) 0 (chunkPayload payload 0) =
        .error (.panic "attempt to subtract with overflow") := by
  have hcount : chunkCount (List.replicate (491 * 256 + 1) 0) = 257 := by
    rw [chunkCount, count, List.length_replicate]
    decide
  have his : ∀ i ∈ List.range 256, i < chunkCount (List.replicate (491 * 256 + 1) 0) := by
    intro i hi
    rw [hcount]
    exact (List.mem_range.mp hi).trans (by decide)
  obtain ⟨results, p, hfeed, -⟩ := exists_feed (by rw [hcount]; decide) List.nodup_range his
  refine ⟨_, List.range 256, results, p, his, hfeed, List.mem_range.mpr (by decide), ?_⟩
  refine receive_drained _ _ (((tracks_feed hfeed).lt_firstPending_iff 0).mpr fun j hj => ?_)
  exact (mem_received_honestParts _ _).mpr (List.mem_range.mpr hj)

/-! ## Completeness -/

/-- What is demanded of giving one more part to a packet: if it reports the packet as reassembled,
then the last part was received, every chunk up to it was received, the bytes are these chunks, and
it has not reported that before; and a part above the last index known before is not counted. -/
def ReportsComplete (parts : List Part) (part : Part) : Prop :=
  ∀ results p result p', new.feed parts = .ok (results, p) →
    p.receive part.last part.seqIndex part.payload = .ok (result, p') →
    (∀ bytes, result = .reassembled bytes →
      (∃ m, lastIndex (parts ++ [part]) = some m ∧
        (∀ i ≤ m, i ∈ received (parts ++ [part])) ∧
        bytes = (List.range (m + 1)).flatMap (chunkOf (parts ++ [part]))) ∧
      ∀ earlier, .reassembled earlier ∉ results) ∧
    ∀ m, lastIndex parts = some m → m < part.seqIndex →
      p'.receivedCount = p.receivedCount ∧ ∀ bytes, result ≠ .reassembled bytes

/-- A part that is new lies within the last index known before; and if the number of parts reaches
the last index with it, then every part received lies within that index, and all below it are
full. -/
def InRange (parts : List Part) (part : Part) : Prop :=
  part.seqIndex ∉ received parts →
    (∀ m, lastIndex parts = some m → part.seqIndex ≤ m) ∧
    ∀ m, lastIndex (parts ++ [part]) = some m → (received parts).card = m →
      ∀ i ∈ received (parts ++ [part]),
        i ≤ m ∧ (i < m → (chunkOf (parts ++ [part]) i).length = 491)

/-- A property holds of every part of a sequence and the parts before it. -/
def AtEach (Q : List Part → Part → Prop) (parts : List Part) : Prop :=
  ∀ before part after, parts = before ++ part :: after → Q before part

theorem atEach_nil (Q : List Part → Part → Prop) : AtEach Q [] := by
  intro before part after h
  simp at h

theorem atEach_append {Q : List Part → Part → Prop} {parts : List Part} {part : Part} :
    AtEach Q (parts ++ [part]) ↔ AtEach Q parts ∧ Q parts part := by
  constructor
  · intro h
    refine ⟨fun before earlier after heq => ?_, h parts part [] rfl⟩
    exact h before earlier (after ++ [part]) (by rw [heq]; simp)
  · rintro ⟨hparts, hpart⟩ before earlier after heq
    rcases List.eq_nil_or_concat after with rfl | ⟨after', final, rfl⟩
    · obtain ⟨rfl, hsame⟩ := List.append_inj' heq rfl
      cases hsame
      exact hpart
    · have hsplit : parts ++ [part] = (before ++ earlier :: after') ++ [final] := by
        rw [heq]
        simp
      exact hparts before earlier after' (List.append_inj' hsplit rfl).1

/-- How many parts are counted: all of them until the packet is reassembled.  From then on the packet
has exactly the parts up to some index, which the last index does not exceed. -/
def Counts (parts : List Part) (results : List ReceivedPacket) (p : ReassembledPacket) : Prop :=
  ((∀ bytes, .reassembled bytes ∉ results) ∧ p.receivedCount = (received parts).card) ∨
    ∃ m k, received parts = Finset.range (m + 1) ∧ lastIndex parts = some k ∧ k ≤ m

variable {parts : List Part} {part : Part} {results : List ReceivedPacket}

/-- A part that was received before is never reported, and keeps the count. -/
theorem Counts.known (h : Counts parts results p) (htracks : Tracks parts p)
    (hknown : part.seqIndex ∈ received parts)
    (hreceive : p.receive part.last part.seqIndex part.payload = .ok (result, p')) :
    ReportsComplete parts part ∧ Counts (parts ++ [part]) (results ++ [result]) p' := by
  have hhas := (htracks.has _).mpr hknown
  have hle : p.firstPending ≤ part.seqIndex := by
    by_contra hlt
    rw [receive_drained _ _ (by omega)] at hreceive
    cases hreceive
  have hduplicate := receive_known part.last part.payload hle hhas
  rw [hduplicate] at hreceive
  cases hreceive
  have hsame : received (parts ++ [part]) = received parts := by
    rw [received_append, Finset.insert_eq_of_mem hknown]
  constructor
  · intro results' q result' q' hfeed hreceive'
    have hq := tracks_feed hfeed
    have hqhas := (hq.has _).mpr hknown
    have hqle : q.firstPending ≤ part.seqIndex := by
      by_contra hlt
      rw [receive_drained _ _ (by omega)] at hreceive'
      cases hreceive'
    rw [receive_known _ _ hqle hqhas] at hreceive'
    cases hreceive'
    have hno : ∀ bytes, ReceivedPacket.duplicate ≠ .reassembled bytes := by simp
    exact ⟨fun bytes hbytes => absurd hbytes (hno bytes), fun m _ _ => ⟨rfl, hno⟩⟩
  · rcases h with ⟨hnone, hcount⟩ | ⟨m, k, hrange, hlast, hkm⟩
    · left
      refine ⟨fun bytes hmem => ?_, by rw [hsame]; exact hcount⟩
      rcases List.mem_append.mp hmem with hmem | hmem
      · exact hnone bytes hmem
      · cases List.mem_singleton.mp hmem
    · right
      rw [hrange, Finset.mem_range] at hknown
      rw [hsame, lastIndex_append]
      by_cases hlast' : part.last = true
      · exact ⟨m, part.seqIndex, hrange, if_pos hlast', by omega⟩
      · exact ⟨m, k, hrange, (if_neg hlast').trans hlast, hkm⟩

/-- A set of `m + 1` indices has everything up to `m` exactly if it has nothing above. -/
theorem eq_range_iff {S : Finset ℕ} {m : ℕ} (hcard : S.card = m + 1) :
    S = Finset.range (m + 1) ↔ ∀ i ∈ S, i ≤ m := by
  constructor
  · rintro rfl i hi
    exact Nat.lt_succ_iff.mp (Finset.mem_range.mp hi)
  · intro hle
    refine Finset.eq_of_subset_of_card_le (fun i hi => ?_) (by rw [Finset.card_range, hcard])
    exact Finset.mem_range.mpr (Nat.lt_succ_iff.mpr (hle i hi))

/-- A new part is reported as demanded exactly if it is in range, and then it is counted. -/
theorem Counts.new (h : Counts parts results p)
    (hfeed : ReassembledPacket.new.feed parts = .ok (results, p))
    (hlen : ∀ part' ∈ parts ++ [part], part'.payload.length ≤ 491)
    (hnew : part.seqIndex ∉ received parts)
    (hreceive : p.receive part.last part.seqIndex part.payload = .ok (result, p')) :
    (ReportsComplete parts part ↔ InRange parts part) ∧
      (InRange parts part → Counts (parts ++ [part]) (results ++ [result]) p') := by
  have htracks := tracks_feed hfeed
  have htracks' := htracks.receive hreceive
  have hnewp := receive_unknown (fun hhas => hnew ((htracks.has _).mp hhas)) hreceive
  have hstep : ReportsComplete parts part ↔
      (∀ bytes, result = .reassembled bytes →
        (∃ m, lastIndex (parts ++ [part]) = some m ∧
          (∀ i ≤ m, i ∈ received (parts ++ [part])) ∧
          bytes = (List.range (m + 1)).flatMap (chunkOf (parts ++ [part]))) ∧
        ∀ earlier, .reassembled earlier ∉ results) ∧
      ∀ m, lastIndex parts = some m → m < part.seqIndex →
        p'.receivedCount = p.receivedCount ∧ ∀ bytes, result ≠ .reassembled bytes := by
    constructor
    · exact fun hreports => hreports results p result p' hfeed hreceive
    · intro hall results' q result' q' hfeed' hreceive'
      rw [hfeed] at hfeed'
      cases hfeed'
      rw [hreceive] at hreceive'
      cases hreceive'
      exact hall
  have hcard : (received (parts ++ [part])).card = (received parts).card + 1 := by
    rw [received_append, Finset.card_insert_of_notMem hnew]
  have hmax := htracks'.maxIndex
  -- a part above the known last index is counted, or it completes the packet
  have habove : ReportsComplete parts part → ∀ m, lastIndex parts = some m →
      part.seqIndex ≤ m := by
    intro hreports m hm
    by_contra hlt
    obtain ⟨hcount, hno⟩ := (hstep.mp hreports).2 m hm (by omega)
    rcases hnewp.outcome with ⟨hresult, -, -⟩ | ⟨-, -, hcount'⟩
    · exact hno _ hresult
    · omega
  rcases h with ⟨hnone, hcount⟩ | ⟨m, k, hrange, hlast, hkm⟩
  · -- the packet was not reported yet, so every part was counted
    have hfull : ∀ m, lastIndex (parts ++ [part]) = some m → (received parts).card = m →
        ((∀ i ≤ m, i ∈ received (parts ++ [part])) ∧
            p'.payload = (List.range (m + 1)).flatMap (chunkOf (parts ++ [part])) ↔
          ∀ i ∈ received (parts ++ [part]),
            i ≤ m ∧ (i < m → (chunkOf (parts ++ [part]) i).length = 491)) := by
      intro m _ hm
      have hrange := eq_range_iff (S := received (parts ++ [part])) (m := m) (by omega)
      constructor
      · rintro ⟨hall, hbytes⟩
        have heq : received (parts ++ [part]) = Finset.range (m + 1) := by
          refine (Finset.eq_of_subset_of_card_le (fun i hi => hall i ?_) ?_).symm
          · exact Nat.lt_succ_iff.mp (Finset.mem_range.mp hi)
          · rw [Finset.card_range]
            omega
        have hstores := htracks'.stores hlen
        rw [heq] at hstores
        have hlens := (hstores.eq_flatMap_iff fun i _ => length_chunkOf_le hlen i).mp hbytes
        exact fun i hi => ⟨hrange.mp heq i hi, fun hlt => hlens i hlt⟩
      · intro hall
        have heq := hrange.mpr fun i hi => (hall i hi).1
        have hmem : ∀ i ≤ m, i ∈ received (parts ++ [part]) := by
          intro i hi
          rw [heq]
          exact Finset.mem_range.mpr (Nat.lt_succ_iff.mpr hi)
        have hstores := htracks'.stores hlen
        rw [heq] at hstores
        exact ⟨hmem, (hstores.eq_flatMap_iff fun i _ => length_chunkOf_le hlen i).mpr
          fun i hi => (hall i (hmem i hi.le)).2 hi⟩
    rcases hnewp.outcome with ⟨hresult, heq, -⟩ | ⟨hresult, hne, hcount'⟩
    · -- the part completes the count
      have hm : lastIndex (parts ++ [part]) = some (received parts).card := by
        rw [← hmax, ← heq, hcount]
      refine ⟨⟨fun hreports _ => ⟨habove hreports, fun m hm' hcard' => ?_⟩, fun hin => ?_⟩,
        fun hin => ?_⟩
      · obtain ⟨⟨m', hm'', hall, hbytes⟩, -⟩ := (hstep.mp hreports).1 _ hresult
        rw [hm'] at hm''
        cases hm''
        exact (hfull m hm' hcard').mp ⟨hall, hbytes⟩
      · obtain ⟨hbelow, hrange⟩ := hin hnew
        obtain ⟨hall, hbytes⟩ := (hfull _ hm rfl).mpr (hrange _ hm rfl)
        refine hstep.mpr ⟨fun bytes hbytes' => ⟨⟨_, hm, hall, ?_⟩, hnone⟩, fun m hm' hlt => ?_⟩
        · rw [hresult] at hbytes'
          cases hbytes'
          exact hbytes
        · exact absurd (hbelow m hm') (by omega)
      · obtain ⟨-, hrange⟩ := hin hnew
        right
        refine ⟨_, _, (eq_range_iff (m := (received parts).card) (by omega)).mpr
          fun i hi => (hrange _ hm rfl i hi).1, hm, le_rfl⟩
    · -- the part is counted
      refine ⟨⟨fun hreports _ => ⟨habove hreports, fun m hm' hcard' => ?_⟩, fun hin => ?_⟩,
        fun _ => ?_⟩
      · exact absurd (by rw [hmax, hm', hcount, hcard']) hne
      · refine hstep.mpr ⟨fun bytes hbytes => ?_, fun m hm' hlt => ?_⟩
        · rw [hresult] at hbytes
          cases hbytes
        · exact absurd ((hin hnew).1 m hm') (by omega)
      · left
        refine ⟨fun bytes hmem => ?_, by omega⟩
        rcases List.mem_append.mp hmem with hmem | hmem
        · exact hnone bytes hmem
        · rw [List.mem_singleton, hresult] at hmem
          cases hmem
  · -- the packet has every part up to the last index, so a new part lies above it
    have habove' : k < part.seqIndex := by
      rw [hrange, Finset.mem_range] at hnew
      omega
    have hnotin : ¬InRange parts part := fun hin =>
      absurd ((hin hnew).1 k hlast) (by omega)
    refine ⟨iff_of_false (fun hreports => ?_) hnotin, fun hin => absurd hin hnotin⟩
    exact absurd (habove hreports k hlast) (by omega)

/-- **Reassembled only when complete.**  In every sequence of parts, every step is as demanded if and
only if every part is in range. -/
theorem reportsComplete_iff {parts : List Part} {results : List ReceivedPacket}
    (hlen : ∀ part ∈ parts, part.payload.length ≤ 491)
    (hreach : ReassembledPacket.new.feed parts = .ok (results, p)) :
    AtEach ReportsComplete parts ↔ AtEach InRange parts := by
  suffices h : (AtEach ReportsComplete parts ↔ AtEach InRange parts) ∧
      (AtEach InRange parts → Counts parts results p) from h.1
  induction parts using List.reverseRecOn generalizing results p with
  | nil =>
    cases hreach
    exact ⟨iff_of_true (atEach_nil _) (atEach_nil _), fun _ => Or.inl ⟨by simp, rfl⟩⟩
  | append_singleton parts part ih =>
    obtain ⟨results', q, result, hfeed, hreceive, rfl⟩ := feed_append_ok hreach
    obtain ⟨hiff, hcounts⟩ :=
      ih (fun part' hpart' => hlen part' (List.mem_append_left _ hpart')) hfeed
    have hstep : AtEach InRange parts →
        (ReportsComplete parts part ↔ InRange parts part) ∧
          (InRange parts part → Counts (parts ++ [part]) (results' ++ [result]) p) := by
      intro hparts
      by_cases hknown : part.seqIndex ∈ received parts
      · obtain ⟨hreports, hcounts'⟩ :=
          (hcounts hparts).known (tracks_feed hfeed) hknown hreceive
        exact ⟨iff_of_true hreports fun hnew => absurd hknown hnew, fun _ => hcounts'⟩
      · exact (hcounts hparts).new hfeed hlen hknown hreceive
    rw [atEach_append, atEach_append]
    constructor
    · constructor
      · rintro ⟨hparts, hpart⟩
        exact ⟨hiff.mp hparts, (hstep (hiff.mp hparts)).1.mp hpart⟩
      · rintro ⟨hparts, hpart⟩
        exact ⟨hiff.mpr hparts, (hstep hparts).1.mpr hpart⟩
    · rintro ⟨hparts, hpart⟩
      exact (hstep hparts).2 hpart

/-- A payload that fills its part. -/
def fullPayload (byte : UInt8) : Bytes :=
  List.replicate 491 byte

@[simp] theorem length_fullPayload (byte : UInt8) : (fullPayload byte).length = 491 :=
  List.length_replicate

/-- Three parts in another order, the last one twice. -/
def shuffledParts : List Part :=
  [⟨true, 2, [3]⟩, ⟨false, 0, fullPayload 1⟩, ⟨true, 2, [3]⟩, ⟨false, 1, fullPayload 2⟩]

/-- They lie within the last index, and those below it are full. -/
theorem inRange_shuffledParts : AtEach InRange shuffledParts := by
  rw [show shuffledParts = (([] ++ [⟨true, 2, [3]⟩]) ++ [⟨false, 0, fullPayload 1⟩] ++
    [⟨true, 2, [3]⟩]) ++ [⟨false, 1, fullPayload 2⟩] from rfl, atEach_append, atEach_append,
    atEach_append, atEach_append]
  refine ⟨⟨⟨⟨atEach_nil _, ?_⟩, ?_⟩, ?_⟩, ?_⟩
  · simp [InRange, received, lastIndex]
  · simp [InRange, received, lastIndex]
  · simp [InRange, received, lastIndex]
  · simp [InRange, received, lastIndex, chunkOf]

/-- For instance, three parts in another order, the last one twice. -/
theorem reportsComplete_shuffled : ∃ results p,
    ReassembledPacket.new.feed shuffledParts = .ok (results, p) ∧
      AtEach InRange shuffledParts ∧ AtEach ReportsComplete shuffledParts := by
  have hfeed : (ReassembledPacket.new.feed shuffledParts).toOption.isSome = true := by
    decide +kernel
  obtain ⟨⟨results, p⟩, hp⟩ := Option.isSome_iff_exists.mp hfeed
  have hreach := toOption_eq_some.mp hp
  refine ⟨results, p, hreach, inRange_shuffledParts, ?_⟩
  exact (reportsComplete_iff (by decide +kernel) hreach).mpr inRange_shuffledParts

set_option maxRecDepth 8000 in
/-- A part beyond the last one is counted, so a packet is reported although a chunk is missing. -/
theorem reports_incomplete : ¬∀ parts results p,
    (∀ part ∈ parts, part.seqIndex < 2 ^ 32 ∧ part.payload.length ≤ 491) →
    ReassembledPacket.new.feed parts = .ok (results, p) → AtEach ReportsComplete parts := by
  intro h
  have hreports := h [⟨false, 2, []⟩, ⟨true, 1, []⟩] _ _ (by simp) rfl [⟨false, 2, []⟩]
    ⟨true, 1, []⟩ [] rfl _ _ _ _ rfl rfl
  obtain ⟨⟨m, hm, hall, -⟩, -⟩ := hreports.1 _ rfl
  cases hm
  exact absurd (hall 0 (Nat.zero_le _)) (by decide)

end ReassembledPacket

end Ultinet
