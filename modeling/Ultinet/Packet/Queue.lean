import Ultinet.Packet.Send

/-!
# What a queue holds

A queue represents a set of acked parts: the ones dropped from the front and the marked ones
(`Acked`).  `Holds id payload q` says that the queue holds the parts of a payload from
`firstUnacked` on, whether they were pulled from the channel yet or not.

`Holds.unacked` describes the parts that are sent next, and `ack_cases` what an ack does: it adds
the part at position `firstUnacked + seqIndex` to the acked ones, which is the part the ack names
only as long as nothing was dropped.
-/

namespace Ultinet

open BitWindow

/-! ## Sending several buffers -/

namespace PacketQueue

/-- Some of the buffers are sent, in order.  Either a send fails, or they are counted, and none of
the sends would have blocked if and only if all were sent. -/
theorem sendBuffers_spec (addr : SocketAddr) (count : ℕ) (bufs : List Bytes) (env : Env) :
    ∃ k ≤ bufs.length, ∃ tried : List Bytes,
      (sendBuffers addr count bufs env).2 =
        env.record (tried.map (Prod.mk addr)) ((bufs.take k).map (Prod.mk addr)) ∧
      ((∃ error, (sendBuffers addr count bufs env).1 = .error error ∧ ¬env.NoError) ∨
        (sendBuffers addr count bufs env).1 = .ok (count + k, decide (k = bufs.length))) := by
  induction bufs generalizing count env with
  | nil => exact ⟨0, le_rfl, [], by simp [sendBuffers], Or.inr (by simp [sendBuffers])⟩
  | cons buf bufs ih =>
    rcases env.send_cases addr buf with ⟨hsend, -⟩ | ⟨hsend, -⟩ | ⟨error, hsend, hanswer⟩
    · obtain ⟨k, hk, tried, henv, hres⟩ :=
        ih (count + 1) (env.record [(addr, buf)] [(addr, buf)])
      refine ⟨k + 1, by simpa using hk, buf :: tried, ?_, ?_⟩
      · simp only [sendBuffers, hsend, henv]
        simp
      · simp only [sendBuffers, hsend]
        rcases hres with ⟨error, herror, hfail⟩ | hok
        · exact Or.inl ⟨error, herror, hfail⟩
        · refine Or.inr ?_
          rw [hok]
          simp
          omega
    · refine ⟨0, Nat.zero_le _, [buf], ?_, Or.inr ?_⟩
      · simp [sendBuffers, hsend]
      · simp [sendBuffers, hsend]
    · refine ⟨0, Nat.zero_le _, [buf], ?_, Or.inl ⟨error, ?_, ?_⟩⟩
      · simp [sendBuffers, hsend]
      · simp [sendBuffers, hsend]
      · exact fun hno => hno _ _ _ hanswer

/-- If every send is accepted then all buffers are sent. -/
theorem sendBuffers_of_sent {addr : SocketAddr} {bufs : List Bytes} {env : Env} (count : ℕ)
    (h : ∀ k < bufs.length, ∀ buf, bufs[k]? = some buf →
      env.answer (env.attempts ++ (bufs.take k).map (Prod.mk addr)) (addr, buf) = .sent) :
    sendBuffers addr count bufs env =
      (.ok (count + bufs.length, true),
        env.record (bufs.map (Prod.mk addr)) (bufs.map (Prod.mk addr))) := by
  induction bufs generalizing count env with
  | nil => simp [sendBuffers]
  | cons buf bufs ih =>
    have hfirst : env.send addr buf = (.ok true, env.record [(addr, buf)] [(addr, buf)]) := by
      have := h 0 (by simp) buf rfl
      simp only [List.take_zero, List.map_nil, List.append_nil] at this
      simp [Env.send, this]
    have hrest := @ih (env.record [(addr, buf)] [(addr, buf)]) (count + 1) fun k hk b hb => by
      have := h (k + 1) (by simpa using hk) b (by simpa using hb)
      simpa using this
    simp only [sendBuffers, hfirst, hrest]
    simp
    omega

/-! ## The parts a queue holds -/

/-- A buffer without its mark. -/
def unmark (b : PacketBuffer) : PacketBuffer :=
  { b with acked := false }

@[simp] theorem deref_unmark (b : PacketBuffer) : (unmark b).deref = b.deref := rfl

theorem unmark_of_not_acked {b : PacketBuffer} (h : b.acked = false) : unmark b = b :=
  PacketBuffer.ext h.symm rfl rfl

/-- The queue holds the parts of a payload from `firstUnacked` on. -/
structure Holds (id : PacketId) (payload : Bytes) (q : PacketQueue) : Prop where
  buffers : (q.packets ++ q.rx.getD []).map unmark = (chunkBuffers id payload).drop q.firstUnacked
  pulled : ∀ b ∈ q.rx.getD [], b.acked = false
  firstUnacked_le : q.firstUnacked ≤ chunkCount payload

/-- The part `i` was dropped from the front or is marked. -/
def Acked (q : PacketQueue) (i : ℕ) : Prop :=
  Mem q.firstUnacked (q.packets.map PacketBuffer.acked) i

instance (q : PacketQueue) : DecidablePred (Acked q) := fun i =>
  inferInstanceAs (Decidable (Mem q.firstUnacked (q.packets.map PacketBuffer.acked) i))

variable {id : PacketId} {payload : Bytes} {q : PacketQueue} {i j : ℕ} {b : PacketBuffer}

/-- A queue with all parts of a payload. -/
theorem holds_new {packet : SerializedPacket}
    (h : packet = .vec (chunkBuffers id payload) ∨ packet = .channel (chunkBuffers id payload)) :
    Holds id payload (new packet) ∧ ∀ i, ¬Acked (new packet) i := by
  have hacked : ∀ b ∈ chunkBuffers id payload, b.acked = false := by
    intro b hb
    obtain ⟨i, -, rfl⟩ := List.mem_map.mp hb
    rfl
  have hunmark : (chunkBuffers id payload).map unmark = chunkBuffers id payload :=
    (List.map_congr_left fun b hb => unmark_of_not_acked (hacked b hb)).trans (List.map_id _)
  have hmarks : (chunkBuffers id payload).map PacketBuffer.acked =
      [] ++ List.replicate (chunkCount payload) false := by
    rw [List.nil_append, List.eq_replicate_iff]
    refine ⟨by simp, fun mark hmark => ?_⟩
    obtain ⟨b, hb, rfl⟩ := List.mem_map.mp hmark
    exact hacked b hb
  rcases h with rfl | rfl
  · refine ⟨⟨by simpa [new] using hunmark, by simp [new], Nat.zero_le _⟩, fun i => ?_⟩
    simp only [Acked, new, hmarks]
    rw [mem_append_replicate]
    exact not_mem_empty
  · exact ⟨⟨by simpa [new] using hunmark, by simpa [new] using hacked, Nat.zero_le _⟩,
      fun i => not_mem_empty⟩

/-- The number of the part at a position of the queue. -/
theorem Holds.part_of_getElem? (hq : Holds id payload q) (hb : q.packets[j]? = some b) :
    q.firstUnacked + j < chunkCount payload ∧
      unmark b = chunkBuffer id payload (q.firstUnacked + j) := by
  have hget : ((q.packets ++ q.rx.getD []).map unmark)[j]? = some (unmark b) := by
    rw [List.getElem?_map, List.getElem?_append_left (List.getElem?_eq_some_iff.mp hb).1, hb]
    rfl
  rw [hq.buffers, List.getElem?_drop] at hget
  have hlt : q.firstUnacked + j < chunkCount payload := by
    have := (List.getElem?_eq_some_iff.mp hget).1
    simpa using this
  rw [getElem?_chunkBuffers hlt] at hget
  exact ⟨hlt, (Option.some.inj hget).symm⟩

/-! ## Pulling and sending -/

/-- Pulling buffers marks nothing. -/
theorem acked_pull (hpulled : ∀ b ∈ q.rx.getD [], b.acked = false) (count i : ℕ) :
    Acked (q.pull count) i ↔ Acked q i := by
  unfold PacketQueue.pull
  cases hrx : q.rx with
  | none => exact Iff.rfl
  | some rx =>
    rw [hrx, Option.getD_some] at hpulled
    dsimp only
    generalize count - ((pending q.packets).take count).length = missing
    have hmarks : (rx.take missing).map PacketBuffer.acked =
        List.replicate (rx.take missing).length false := by
      rw [List.eq_replicate_iff]
      refine ⟨by simp, fun mark hmark => ?_⟩
      obtain ⟨b, hb, rfl⟩ := List.mem_map.mp hmark
      exact hpulled b (List.mem_of_mem_take hb)
    simp only [Acked, List.map_append, hmarks]
    exact mem_append_replicate _

/-- Pulling buffers changes neither what the queue holds nor what is acked. -/
theorem Holds.pull (hq : Holds id payload q) (count : ℕ) :
    Holds id payload (q.pull count) ∧ ∀ i, Acked (q.pull count) i ↔ Acked q i := by
  refine ⟨?_, acked_pull hq.pulled count⟩
  unfold PacketQueue.pull
  cases hrx : q.rx with
  | none => exact hq
  | some rx =>
    have hbuffers := hq.buffers
    have hpulled := hq.pulled
    rw [hrx, Option.getD_some] at hbuffers hpulled
    dsimp only
    generalize count - ((pending q.packets).take count).length = missing
    refine ⟨?_, ?_, hq.firstUnacked_le⟩
    · simpa [List.append_assoc, List.take_append_drop] using hbuffers
    · exact fun b hb => hpulled b (List.mem_of_mem_drop hb)

/-- A marked position of the queue is an acked part. -/
theorem acked_iff_of_getElem? (hb : q.packets[j]? = some b) :
    Acked q (q.firstUnacked + j) ↔ b.acked = true := by
  rw [Acked, mem_iff_of_le (Nat.le_add_right _ _), Nat.add_sub_cancel_left, List.getElem?_map, hb]
  simp

/-- The parts that are sent next are unacked parts of the payload. -/
theorem Holds.mem_unacked (hq : Holds id payload q) {count : ℕ} {buf : Bytes}
    (hbuf : buf ∈ (q.unacked count).1) :
    ∃ i < chunkCount payload, ¬Acked q i ∧ buf = chunkDatagram id payload i := by
  obtain ⟨hpull, hacked⟩ := hq.pull count
  have hmem := List.mem_of_mem_take hbuf
  obtain ⟨b, hb, rfl⟩ := List.mem_map.mp hmem
  obtain ⟨hb, hmark⟩ := List.mem_filter.mp hb
  obtain ⟨j, hj⟩ := List.getElem?_of_mem hb
  obtain ⟨hlt, hpart⟩ := hpull.part_of_getElem? hj
  refine ⟨_, hlt, ?_, ?_⟩
  · rw [← hacked, acked_iff_of_getElem? hj]
    simpa using hmark
  · rw [← deref_unmark, hpart, deref_chunkBuffer]

/-- If there is nothing to send then nothing is left in the channel, and every buffer of the queue is
marked. -/
theorem unacked_eq_nil (hpulled : ∀ b ∈ q.rx.getD [], b.acked = false) {count : ℕ}
    (hcount : 0 < count) (hnil : (q.unacked count).1 = []) :
    q.rx.getD [] = [] ∧ ∀ b ∈ q.packets, b.acked = true := by
  have hall : pending (q.pull count).packets = [] := by
    have hnil' : (((pending (q.pull count).packets).map PacketBuffer.deref).take count) = [] := hnil
    rw [List.take_eq_nil_iff] at hnil'
    rcases hnil' with hzero | hnil'
    · omega
    · exact List.map_eq_nil_iff.mp hnil'
  have hmarked : pending q.packets = [] → ∀ b ∈ q.packets, b.acked = true := by
    intro hpackets b hb
    simpa using List.filter_eq_nil_iff.mp hpackets b hb
  cases hrx : q.rx with
  | none =>
    simp only [PacketQueue.pull, hrx] at hall
    exact ⟨rfl, hmarked hall⟩
  | some rx =>
    rw [hrx, Option.getD_some] at hpulled
    simp only [PacketQueue.pull, hrx] at hall
    rw [pending, List.filter_append, List.append_eq_nil_iff] at hall
    obtain ⟨hpackets, htaken⟩ := hall
    -- nothing in the queue is unmarked, so `count` buffers were to be pulled
    have hexisting : pending q.packets = [] := hpackets
    rw [hexisting, List.take_nil, List.length_nil, Nat.sub_zero] at htaken
    have htake : rx.take count = [] := by
      rw [List.filter_eq_self.mpr fun b hb => by
        simp [hpulled b (List.mem_of_mem_take hb)]] at htaken
      exact htaken
    rw [List.take_eq_nil_iff] at htake
    rcases htake with hzero | hempty
    · omega
    · exact ⟨hempty, hmarked hpackets⟩

/-- If there is nothing to send then every part is acked. -/
theorem Holds.acked_of_unacked_eq_nil (hq : Holds id payload q) {count : ℕ} (hcount : 0 < count)
    (hnil : (q.unacked count).1 = []) (hi : i < chunkCount payload) : Acked q i := by
  obtain ⟨hrx, hmarked⟩ := unacked_eq_nil hq.pulled hcount hnil
  by_cases hlt : i < q.firstUnacked
  · exact mem_of_lt hlt
  · have hlength := congrArg List.length hq.buffers
    rw [hrx, List.append_nil, List.length_map, List.length_drop, length_chunkBuffers] at hlength
    have hj : i - q.firstUnacked < q.packets.length := by omega
    rw [show i = q.firstUnacked + (i - q.firstUnacked) by omega,
      acked_iff_of_getElem? (List.getElem?_eq_getElem hj)]
    exact hmarked _ (List.getElem_mem hj)

/-! ## Acks -/

/-- Marking the buffer at a position. -/
theorem acked_set_iff {packet : PacketBuffer} (hget : q.packets[j]? = some packet) :
    Acked { q with packets := q.packets.set j { packet with acked := true } } i ↔
      i = q.firstUnacked + j ∨ Acked q i := by
  have hj : j < q.packets.length := (List.getElem?_eq_some_iff.mp hget).1
  simp only [Acked, List.map_set]
  have hlen : q.firstUnacked + j - q.firstUnacked < (q.packets.map PacketBuffer.acked).length := by
    simpa using hj
  simpa using mem_set (i := i) (Nat.le_add_right q.firstUnacked j) hlen

/-- Dropping the marked buffers at the front does not change what is acked. -/
theorem acked_dropFront {count : ℕ} (hcount : count = q.packets.findIdx fun packet => !packet.acked)
    (i : ℕ) :
    Acked { q with packets := q.packets.drop count, firstUnacked := q.firstUnacked + count } i ↔
      Acked q i := by
  simp only [Acked, List.map_drop]
  refine mem_drop fun n hn => ?_
  refine getElem?_of_lt_findIdx ?_
  rw [List.findIdx_map]
  exact hn.trans_le hcount.le

/-- Everything an ack can do to a queue: it is rejected, it is a duplicate, or it marks the part at
the position of the sequence index, counted from the first part that was not dropped. -/
theorem ack_outcome (q : PacketQueue) (seqIndex : ℕ) :
    (q.packets[seqIndex]? = none ∧ q.ack seqIndex = (.error ⟨seqIndex⟩, q)) ∨
      (∃ b, q.packets[seqIndex]? = some b ∧ b.acked = true ∧ q.ack seqIndex = (.ok true, q)) ∨
      ∃ b, q.packets[seqIndex]? = some b ∧ b.acked = false ∧
        ∃ q', q.ack seqIndex = (.ok false, q') ∧
          ∀ i, Acked q' i ↔ i = q.firstUnacked + seqIndex ∨ Acked q i := by
  cases hget : q.packets[seqIndex]? with
  | none => exact Or.inl ⟨rfl, by simp [ack, hget]⟩
  | some b =>
    cases hmark : b.acked with
    | true => exact Or.inr (Or.inl ⟨b, rfl, hmark, by simp [ack, hget, hmark]⟩)
    | false =>
      refine Or.inr (Or.inr ⟨b, rfl, hmark, _, by simp only [ack, hget, hmark]; rfl, fun i => ?_⟩)
      rw [← acked_set_iff hget]
      exact acked_dropFront (q := { q with
        packets := q.packets.set seqIndex { b with acked := true } }) rfl i

/-- Acks mark and drop parts of the payload. -/
theorem Holds.ack (hq : Holds id payload q) (seqIndex : ℕ) :
    Holds id payload (q.ack seqIndex).2 := by
  unfold PacketQueue.ack
  cases hget : q.packets[seqIndex]? with
  | none => exact hq
  | some b =>
    dsimp only
    split_ifs
    · exact hq
    have hset : ((q.packets.set seqIndex { b with acked := true } ++ q.rx.getD []).map unmark) =
        (chunkBuffers id payload).drop q.firstUnacked := by
      have hbuffers := hq.buffers
      rw [List.map_append] at hbuffers ⊢
      rw [← hbuffers, List.map_set]
      congr 1
      obtain ⟨hlt, rfl⟩ := List.getElem?_eq_some_iff.mp hget
      refine List.ext_getElem (by simp) fun n hn hn' => ?_
      by_cases hns : seqIndex = n
      · subst hns
        simp [unmark]
      · simp [List.getElem_set_ne hns]
    generalize q.packets.set seqIndex { b with acked := true } = packets at hset
    generalize hcount : (packets.findIdx fun packet => !packet.acked) = count
    have hle : count ≤ packets.length := hcount ▸ List.findIdx_le_length
    have hlength := congrArg List.length hset
    rw [List.length_map, List.length_append, List.length_drop, length_chunkBuffers] at hlength
    refine ⟨?_, hq.pulled, ?_⟩
    · dsimp only
      rw [← List.drop_append_of_le_length hle, List.map_drop, hset, List.drop_drop]
    · have := hq.firstUnacked_le
      dsimp only
      omega

/-- What an ack can do to a queue that holds the parts of a payload. -/
theorem ack_cases (hq : Holds id payload q) (seqIndex : ℕ) :
    (q.packets[seqIndex]? = none ∧ q.ack seqIndex = (.error ⟨seqIndex⟩, q)) ∨
      (∃ b, q.packets[seqIndex]? = some b ∧ b.acked = true ∧ q.ack seqIndex = (.ok true, q)) ∨
      ∃ b, q.packets[seqIndex]? = some b ∧ b.acked = false ∧
        ∃ q', q.ack seqIndex = (.ok false, q') ∧ Holds id payload q' ∧
          ∀ i, Acked q' i ↔ i = q.firstUnacked + seqIndex ∨ Acked q i := by
  have hholds := hq.ack seqIndex
  rcases q.ack_outcome seqIndex with hnone | hmarked | ⟨b, hget, hmark, q', hack, hacked⟩
  · exact Or.inl hnone
  · exact Or.inr (Or.inl hmarked)
  · rw [hack] at hholds
    exact Or.inr (Or.inr ⟨b, hget, hmark, q', hack, hholds, hacked⟩)

end PacketQueue

/-! ## A packet being sent -/

namespace PacketOut

open PacketQueue

variable {id : PacketId} {payload : Bytes} {p : PacketOut}

/-- The datagrams of the first batch. -/
def firstBatch (id : PacketId) (payload : Bytes) (batchSize : ℕ) : List Bytes :=
  ((List.range (chunkCount payload)).map (chunkDatagram id payload)).take batchSize

/-- The first batch takes the parts from the front. -/
theorem unacked_new {packet : SerializedPacket}
    (h : packet = .vec (chunkBuffers id payload) ∨ packet = .channel (chunkBuffers id payload))
    (count : ℕ) : ((PacketQueue.new packet).unacked count).1 = firstBatch id payload count := by
  have hpending : ∀ m, PacketQueue.pending ((chunkBuffers id payload).take m) =
      (chunkBuffers id payload).take m := by
    intro m
    refine List.filter_eq_self.mpr fun b hb => ?_
    obtain ⟨i, -, rfl⟩ := List.mem_map.mp (List.mem_of_mem_take hb)
    rfl
  have hderef : (chunkBuffers id payload).map PacketBuffer.deref =
      (List.range (chunkCount payload)).map (chunkDatagram id payload) := by
    simp [chunkBuffers]
  rcases h with rfl | rfl
  · have hall := hpending (chunkBuffers id payload).length
    rw [List.take_length] at hall
    simp [unacked, pull, PacketQueue.new, hall, hderef, firstBatch]
  · have hnone : PacketQueue.pending [] = [] := rfl
    simp only [unacked, pull, PacketQueue.new, hnone, List.take_nil, List.length_nil, Nat.sub_zero,
      List.nil_append, hpending, List.map_take, hderef, firstBatch, List.take_take, min_self]

/-- The packet holds the parts of a payload that are not in a given set. -/
structure Sending (id : PacketId) (payload : Bytes) (acked : ℕ → Prop) (p : PacketOut) : Prop where
  holds : Holds id payload p.packetQueue
  acked_iff : ∀ i, Acked p.packetQueue i ↔ acked i

/-- Sending unacked parts: some of them are sent, and the queue holds what it held.  Nothing was
there to send if and only if none was sent although the socket never blocked; then every part is
acked. -/
theorem sendUnacked_spec {q : PacketQueue} (hq : Holds id payload q) (batchSize : NonZeroBatchSize)
    (addr : SocketAddr) (env : Env) :
    ∃ result q' attempts, ∃ bufs : List Bytes,
      q.sendUnacked batchSize addr env =
        (result, q', env.record attempts (bufs.map (Prod.mk addr))) ∧
      Holds id payload q' ∧ (∀ i, Acked q' i ↔ Acked q i) ∧
      (∀ buf ∈ bufs, ∃ i < chunkCount payload, ¬Acked q i ∧ buf = chunkDatagram id payload i) ∧
      ((∃ error, result = .error error ∧ ¬env.NoError) ∨ ∃ count sent, result = .ok (count, sent)) ∧
      (result = .ok (0, true) → bufs = [] ∧ ∀ i < chunkCount payload, Acked q i) := by
  obtain ⟨hpull, hacked⟩ := hq.pull batchSize.val
  obtain ⟨k, hk, tried, henv, hres⟩ :=
    sendBuffers_spec addr 0 (q.unacked batchSize.val).1 env
  refine ⟨_, q.pull batchSize.val, tried.map (Prod.mk addr), (q.unacked batchSize.val).1.take k,
    Prod.ext rfl (Prod.ext rfl henv), hpull, hacked, fun buf hbuf => ?_, ?_, fun hzero => ?_⟩
  · exact hq.mem_unacked (List.mem_of_mem_take hbuf)
  · rcases hres with herror | hok
    · exact Or.inl herror
    · exact Or.inr ⟨_, _, hok⟩
  · replace hzero : (sendBuffers addr 0 (q.unacked batchSize.val).1 env).1 = .ok (0, true) := hzero
    rcases hres with ⟨error, herror, -⟩ | hok
    · rw [herror] at hzero
      cases hzero
    · rw [hok] at hzero
      simp only [Except.ok.injEq, Prod.mk.injEq, decide_eq_true_eq] at hzero
      have hnil : (q.unacked batchSize.val).1 = [] := List.length_eq_zero_iff.mp (by omega)
      refine ⟨by simp [hnil], fun i hi => ?_⟩
      exact hq.acked_of_unacked_eq_nil batchSize.property.1 hnil hi

/-- Starting to send a packet. -/
theorem send_spec {packet : SerializedPacket}
    (h : packet = .vec (chunkBuffers id payload) ∨ packet = .channel (chunkBuffers id payload))
    (addr : SocketAddr) (batchSize : NonZeroBatchSize) (env : Env) :
    ∃ result attempts, ∃ bufs : List Bytes,
      send packet addr batchSize env = (result, env.record attempts (bufs.map (Prod.mk addr))) ∧
      (∀ buf ∈ bufs, ∃ i < chunkCount payload, buf = chunkDatagram id payload i) ∧
      ((∃ error, result = .error error ∧ ¬env.NoError) ∨
        ∃ p, result = .ok p ∧ Sending id payload (fun _ => False) p) := by
  obtain ⟨hnew, hnone⟩ := PacketQueue.holds_new h
  obtain ⟨result, q', attempts, bufs, hsend, hq', hacked, hbufs, hres, -⟩ :=
    sendUnacked_spec hnew batchSize addr env
  rcases hres with ⟨error, rfl, herror⟩ | ⟨count, sent, rfl⟩
  · refine ⟨_, attempts, bufs, by simp only [send, hsend], fun buf hbuf => ?_,
      Or.inl ⟨error, rfl, herror⟩⟩
    obtain ⟨i, hi, -, rfl⟩ := hbufs buf hbuf
    exact ⟨i, hi, rfl⟩
  · refine ⟨.ok ⟨q', if sent then some env.now else none, 0, batchSize, count, 0⟩, attempts, bufs,
      by simp only [send, hsend, Env.record_now], fun buf hbuf => ?_,
      Or.inr ⟨_, rfl, hq', fun i => ?_⟩⟩
    · obtain ⟨i, hi, -, rfl⟩ := hbufs buf hbuf
      exact ⟨i, hi, rfl⟩
    · exact (hacked i).trans (iff_of_false (hnone i) not_false)

/-- The socket accepts the whole first batch. -/
def FirstBatchSent (id : PacketId) (payload : Bytes) (batchSize : ℕ) (addr : SocketAddr)
    (env : Env) : Prop :=
  ∀ k < (firstBatch id payload batchSize).length, ∀ buf,
    (firstBatch id payload batchSize)[k]? = some buf →
      env.answer (env.attempts ++ ((firstBatch id payload batchSize).take k).map (Prod.mk addr))
        (addr, buf) = .sent

/-- If the first batch is accepted then the packet does not count as canceled. -/
theorem send_of_firstBatchSent {packet : SerializedPacket}
    (h : packet = .vec (chunkBuffers id payload) ∨ packet = .channel (chunkBuffers id payload))
    {addr : SocketAddr} {batchSize : NonZeroBatchSize} {env : Env}
    (hsent : FirstBatchSent id payload batchSize.val addr env) :
    ∃ p, send packet addr batchSize env =
        (.ok p, env.record ((firstBatch id payload batchSize.val).map (Prod.mk addr))
          ((firstBatch id payload batchSize.val).map (Prod.mk addr))) ∧
      p.lastSend = some env.now := by
  have hbufs := unacked_new h batchSize.val
  have hall := sendBuffers_of_sent 0 hsent
  refine ⟨⟨((PacketQueue.new packet).unacked batchSize.val).2, some env.now, 0, batchSize,
    (firstBatch id payload batchSize.val).length, 0⟩, ?_, rfl⟩
  simp only [send, sendUnacked, hbufs, hall, Nat.zero_add, if_pos, Env.record_now]

/-- Sending the pending parts again.  Either parts that are not acked are sent, and the packet stays,
or the packet counts as canceled or is acked as a whole, and a `Done` is sent. -/
theorem sendPending_spec {acked : ℕ → Prop} (hp : Sending id payload acked p) (resendDelay : ℕ)
    (addr : SocketAddr) (env : Env) :
    ∃ result p' attempts, ∃ bufs : List Bytes,
      p.sendPending id resendDelay addr env =
        (result, p', env.record attempts (bufs.map (Prod.mk addr))) ∧
      Sending id payload acked p' ∧ (p'.lastSend = none ↔ p.lastSend = none) ∧
      (∀ error, result = .error error → ¬env.NoError) ∧
      ((result = .ok true ∧ bufs = [doneDatagram id] ∧
          (p.lastSend = none ∨ ∀ i < chunkCount payload, acked i)) ∨
        (result ≠ .ok true ∧
          ∀ buf ∈ bufs, ∃ i < chunkCount payload, ¬acked i ∧ buf = chunkDatagram id payload i)) := by
  have hdone : ∀ env : Env, ∃ result attempts, ∃ bufs : List Bytes,
      done id addr env = (result, env.record attempts (bufs.map (Prod.mk addr))) ∧
      (∀ error, result = .error error → ¬env.NoError) ∧
      ((result = .ok true ∧ bufs = [doneDatagram id]) ∨ (result ≠ .ok true ∧ bufs = [])) := by
    intro env
    rcases env.send_cases addr (doneDatagram id) with ⟨hsend, -⟩ | ⟨hsend, -⟩ | ⟨e, hsend, ha⟩
    · exact ⟨_, _, [doneDatagram id], hsend, by simp, Or.inl ⟨rfl, rfl⟩⟩
    · exact ⟨_, _, [], hsend, by simp, Or.inr ⟨by simp, rfl⟩⟩
    · exact ⟨_, _, [], hsend, fun _ _ hno => hno _ _ _ ha, Or.inr ⟨by simp, rfl⟩⟩
  cases hlast : p.lastSend with
  | none =>
    obtain ⟨result, attempts, bufs, heq, herror, hcases⟩ := hdone env
    refine ⟨result, p, attempts, bufs, by simp [sendPending, hlast, heq], hp, by simp [hlast],
      herror, ?_⟩
    rcases hcases with ⟨rfl, rfl⟩ | ⟨hne, rfl⟩
    · exact Or.inl ⟨rfl, rfl, Or.inl rfl⟩
    · exact Or.inr ⟨hne, by simp⟩
  | some lastSend =>
    by_cases hdue : elapsed env.now lastSend < resendDelay
    · exact ⟨.ok false, p, [], [], by simp [sendPending, hlast, hdue], hp, by simp [hlast], by simp,
        Or.inr ⟨by simp, by simp⟩⟩
    set batchSize := balanceBatchSize p.batchSize p.lastBatchAcks p.lastBatchSize with hbatch
    obtain ⟨result, q', attempts, bufs, hsend, hq', hacked, hbufs, hres, hzero⟩ :=
      sendUnacked_spec hp.holds batchSize addr env
    have hq'' : ∀ i, Acked q' i ↔ acked i := fun i => (hacked i).trans (hp.acked_iff i)
    have hparts : ∀ buf ∈ bufs, ∃ i < chunkCount payload, ¬acked i ∧
        buf = chunkDatagram id payload i := by
      intro buf hbuf
      obtain ⟨i, hi, hnot, rfl⟩ := hbufs buf hbuf
      exact ⟨i, hi, fun h => hnot ((hp.acked_iff i).mpr h), rfl⟩
    rcases hres with ⟨error, rfl, herror⟩ | ⟨count, sent, rfl⟩
    · exact ⟨.error error, { p with packetQueue := q', batchSize }, attempts, bufs,
        by simp only [sendPending, hlast, if_neg hdue, ← hbatch, hsend], ⟨hq', hq''⟩,
        by simp [hlast], fun _ _ => herror, Or.inr ⟨by simp, hparts⟩⟩
    · by_cases hall : count = 0 ∧ sent = true
      · -- nothing was left to send
        obtain ⟨rfl, rfl⟩ := hall
        obtain ⟨rfl, hcomplete⟩ := hzero rfl
        obtain ⟨result, attempts', bufs', heq, herror, hcases⟩ := hdone (env.record attempts [])
        refine ⟨result, { p with packetQueue := q', batchSize }, attempts ++ attempts', bufs', ?_,
          ⟨hq', hq''⟩, by simp [hlast], herror, ?_⟩
        · simp only [sendPending, hlast, if_neg hdue, ← hbatch, hsend, List.map_nil, heq,
            Env.record_record, List.nil_append]
        · rcases hcases with ⟨rfl, rfl⟩ | ⟨hne, rfl⟩
          · exact Or.inl ⟨rfl, rfl, Or.inr fun i hi => (hp.acked_iff i).mp (hcomplete i hi)⟩
          · exact Or.inr ⟨hne, by simp⟩
      · refine ⟨.ok false,
          { p with
            packetQueue := q'
            missedAcks := p.missedAcks + (p.lastBatchSize - p.lastBatchAcks)
            batchSize
            lastBatchSize := count
            lastBatchAcks := 0
            lastSend := some env.now }, attempts, bufs, ?_, ⟨hq', hq''⟩, by simp, by simp,
          Or.inr ⟨by simp, hparts⟩⟩
        simp only [sendPending, hlast, if_neg hdue, ← hbatch, hsend]
        split
        · simp_all
        · simp_all
        · rename_i hok
          simp only [Prod.mk.injEq, Except.ok.injEq] at hok
          obtain ⟨⟨rfl, rfl⟩, rfl, rfl⟩ := hok
          rfl

/-- What an ack does to a packet: it is rejected, it is a duplicate, or it marks a part. -/
theorem ack_spec {acked : ℕ → Prop} (hp : Sending id payload acked p) (seqIndex : ℕ) :
    ∃ result p', p.ack seqIndex = (result, p') ∧ p'.lastSend = p.lastSend ∧
      ((Sending id payload acked p' ∧ result ≠ .ok false) ∨
        ∃ b, p.packetQueue.packets[seqIndex]? = some b ∧ b.acked = false ∧ result = .ok false ∧
          Sending id payload
            (fun i => i = p.packetQueue.firstUnacked + seqIndex ∨ acked i) p') := by
  rcases PacketQueue.ack_cases hp.holds seqIndex with
    ⟨-, hack⟩ | ⟨b, -, -, hack⟩ | ⟨b, hget, hmark, q', hack, hq', hacked⟩
  · exact ⟨.error ⟨seqIndex⟩, { p with missedAcks := 0 }, by simp only [ack, hack], rfl,
      Or.inl ⟨⟨hp.holds, hp.acked_iff⟩, by simp⟩⟩
  · exact ⟨.ok true, { p with missedAcks := 0 }, by simp only [ack, hack], rfl,
      Or.inl ⟨⟨hp.holds, hp.acked_iff⟩, by simp⟩⟩
  · refine ⟨.ok false,
      { p with
        packetQueue := q'
        missedAcks := 0
        lastBatchAcks := min (p.lastBatchAcks + 1) batchSizeMax },
      by simp only [ack, hack], rfl, Or.inr ⟨b, hget, hmark, rfl, hq', fun i => ?_⟩⟩
    exact (hacked i).trans (or_congr Iff.rfl (hp.acked_iff i))

/-! ### What was dropped from the front -/

theorem pull_firstUnacked (q : PacketQueue) (count : ℕ) :
    (q.pull count).firstUnacked = q.firstUnacked := by
  unfold pull
  cases q.rx <;> rfl

/-- Sending parts does not drop any. -/
theorem sendPending_firstUnacked (p : PacketOut) (id : PacketId) (resendDelay : ℕ)
    (addr : SocketAddr) (env : Env) :
    (p.sendPending id resendDelay addr env).2.1.packetQueue.firstUnacked =
      p.packetQueue.firstUnacked := by
  unfold sendPending
  split
  · rfl
  · split_ifs
    · rfl
    · dsimp only [sendUnacked, unacked]
      split <;> rename_i heq <;> simp only [Prod.mk.injEq] at heq <;>
        rw [← heq.2.1, pull_firstUnacked]

/-- An ack does not bring dropped parts back. -/
theorem ack_firstUnacked_le (p : PacketOut) (seqIndex : ℕ) :
    p.packetQueue.firstUnacked ≤ (p.ack seqIndex).2.packetQueue.firstUnacked := by
  have hqueue : p.packetQueue.firstUnacked ≤ (p.packetQueue.ack seqIndex).2.firstUnacked := by
    unfold PacketQueue.ack
    split
    · exact le_rfl
    · split_ifs
      · exact le_rfl
      · exact Nat.le_add_right _ _
  unfold ack
  dsimp only
  split <;> rename_i heq <;> rw [heq] at hqueue <;> exact hqueue

/-- The ack of the part at the front drops it. -/
theorem ack_zero {b : PacketBuffer} {bs : List PacketBuffer}
    (hpackets : p.packetQueue.packets = b :: bs) (hmark : b.acked = false) :
    (p.ack 0).1 = .ok false ∧ 0 < (p.ack 0).2.packetQueue.firstUnacked := by
  simp [ack, PacketQueue.ack, hpackets, hmark, List.findIdx_cons]

/-- After the first batch was sent, the part at the front of the queue is there and not acked. -/
theorem send_front {packet : SerializedPacket}
    (h : packet = .vec (chunkBuffers id payload) ∨ packet = .channel (chunkBuffers id payload))
    {addr : SocketAddr} {batchSize : NonZeroBatchSize} {env env' : Env}
    (hsend : send packet addr batchSize env = (.ok p, env')) :
    ∃ b bs, p.packetQueue.packets = b :: bs ∧ b.acked = false := by
  obtain ⟨hnew, hnone⟩ := PacketQueue.holds_new h
  obtain ⟨-, hacked⟩ := hnew.pull batchSize.val
  have hqueue : p.packetQueue = (PacketQueue.new packet).pull batchSize.val := by
    simp only [send, sendUnacked, unacked] at hsend
    split at hsend <;> rename_i heq <;> simp only [Prod.mk.injEq] at heq hsend
    · cases hsend.1
    · rw [← Except.ok.inj hsend.1]
      exact heq.2.1.symm
  cases hpackets : p.packetQueue.packets with
  | nil =>
    -- the first batch has a part, so the queue is not empty
    have hbatch := unacked_new h batchSize.val
    have hempty : ((PacketQueue.new packet).unacked batchSize.val).1 = [] := by
      rw [hqueue] at hpackets
      simp [unacked, hpackets, pending]
    have hpos := chunkCount_pos payload
    have hlen := congrArg List.length (hbatch.symm.trans hempty)
    simp only [firstBatch, List.length_take, List.length_map, List.length_range,
      List.length_nil] at hlen
    have := batchSize.property.1
    omega
  | cons b bs =>
    refine ⟨b, bs, rfl, ?_⟩
    have hget : ((PacketQueue.new packet).pull batchSize.val).packets[0]? = some b := by
      rw [← hqueue, hpackets]
      rfl
    have hmark := (acked_iff_of_getElem? hget).not.mp (by rw [hacked]; exact hnone _)
    simpa using hmark

/-- If every part is acked and the delay has passed then a `Done` is sent. -/
theorem sendPending_of_acked {acked : ℕ → Prop} (hp : Sending id payload acked p)
    (hacked : ∀ i < chunkCount payload, acked i) {lastSend resendDelay : ℕ}
    (hlast : p.lastSend = some lastSend) {addr : SocketAddr} {env : Env}
    (hdue : resendDelay ≤ elapsed env.now lastSend)
    (hanswer : env.answer env.attempts (addr, doneDatagram id) = .sent) :
    ∃ p', p.sendPending id resendDelay addr env =
      (.ok true, p', env.record [(addr, doneDatagram id)] [(addr, doneDatagram id)]) := by
  have hnil : ∀ count, (p.packetQueue.unacked count).1 = [] := by
    intro count
    refine List.eq_nil_iff_forall_not_mem.mpr fun buf hbuf => ?_
    obtain ⟨i, hi, hnot, -⟩ := hp.holds.mem_unacked hbuf
    exact hnot ((hp.acked_iff i).mpr (hacked i hi))
  refine ⟨{ p with
    batchSize := balanceBatchSize p.batchSize p.lastBatchAcks p.lastBatchSize
    packetQueue := p.packetQueue.pull
      (balanceBatchSize p.batchSize p.lastBatchAcks p.lastBatchSize).val }, ?_⟩
  simp only [sendPending, hlast, if_neg (not_lt.mpr hdue), sendUnacked, hnil, sendBuffers,
    done, Env.send, hanswer]
  rfl

end PacketOut

end Ultinet
