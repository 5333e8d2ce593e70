import Ultinet.Net.Connection
import Ultinet.Packet.Transfer

/-!
# A transfer over a perfect network

The lock-step run of one packet: no send blocks or fails, every part is handled by the receiver as
soon as it is sent, every ack is handled by the sender before it sends anything else, and the resend
delay has always passed when pending parts are sent.

A packet of one part is done after one round.  Every other packet stays with the sender forever
(`completes_iff`).  The ack of part 0 drops it from the front of the queue, and part 1 moves to
position 0; from then on the ack of part `i` marks the part at position `i`, which is not part 1
for any part that is still sent (`Stuck`).
-/

namespace Ultinet

open PacketOut (Sending)

/-! ## The run -/

/-- What a lock-step run depends on. -/
structure LockStepSetup where
  senderAddr : SocketAddr
  receiverAddr : SocketAddr
  id : PacketId
  batchSize : NonZeroBatchSize
  threshold : ℕ
  value : List Bytes
  resendDelay : ℕ
  /-- When the packet is sent, and when pending parts are sent for the `k`-th time. -/
  clock : ℕ → ℕ
  delayed : ∀ k, clock k + resendDelay ≤ clock (k + 1)
  small : chunkCount value.flatten < seqIndexBound

/-- The state of a lock-step run. -/
structure LockStep where
  sender : SendPacketBuffer
  receiver : ReceivePacketBuffer
  /-- What the sender sent. -/
  sent : List Bytes
  /-- What the sender answered to acks. -/
  acks : List (Except HandlePacketError SentPacketHandling)
  /-- What the receiver reassembled. -/
  reports : List (PacketId × Bytes)

namespace LockStepSetup

variable (c : LockStepSetup)

/-- The serialized payload. -/
def payload : Bytes := c.value.flatten

/-- A socket that accepts everything. -/
def env (now : ℕ) : Env where
  now
  answer := fun _ _ => .sent
  uuid := fun _ => c.id

/-- The sender handles acks. -/
def handleAcks : LockStep → List Bytes → Exec LockStep
  | s, [] => .ok s
  | s, buf :: bufs => do
      let (result, sender) ← s.sender.handle buf
      handleAcks { s with sender, acks := s.acks ++ [result] } bufs

/-- The receiver handles a datagram, and the sender the acks of it. -/
def deliver (s : LockStep) (now : ℕ) (buf : Bytes) : Exec LockStep := do
  let (result, receiver, env) ← s.receiver.handle buf c.senderAddr (c.env now)
  handleAcks { s with receiver, reports := s.reports ++ reportOf buf result }
    (env.sent.map Prod.snd)

/-- All datagrams that were sent are delivered. -/
def deliverAll (now : ℕ) : LockStep → List Bytes → Exec LockStep
  | s, [] => .ok s
  | s, buf :: bufs => do deliverAll now (← c.deliver s now buf) bufs

/-- The packet is sent, and what the sender sent is delivered. -/
def start : Exec LockStep := do
  let (_, sender, env) ← (SendPacketBuffer.new c.batchSize).send c.value c.threshold c.receiverAddr
    (c.env (c.clock 0))
  let bufs := env.sent.map Prod.snd
  c.deliverAll (c.clock 0) { sender, receiver := .new, sent := bufs, acks := [], reports := [] } bufs

/-- Pending parts are sent, and what the sender sent is delivered. -/
def round (s : LockStep) (now : ℕ) : Exec LockStep :=
  let (_, sender, env) := s.sender.sendPending c.resendDelay c.receiverAddr (c.env now)
  let bufs := env.sent.map Prod.snd
  c.deliverAll now { s with sender, sent := s.sent ++ bufs } bufs

/-- The run up to the `k`-th time that pending parts are sent. -/
def lockStep : ℕ → Exec LockStep
  | 0 => c.start
  | k + 1 => do c.round (← lockStep k) (c.clock (k + 1))

/-- The transfer completes: after pending parts were sent as many times as the packet has parts, or
earlier, the sender has sent `Done` and dropped the packet, every ack was accepted, and the receiver
reassembled the payload exactly once. -/
def Completes : Prop :=
  ∃ k ≤ chunkCount c.payload, ∃ s, c.lockStep k = .ok s ∧
    s.sender.packets.get? c.id = none ∧ doneDatagram c.id ∈ s.sent ∧
    (∀ result ∈ s.acks, ∃ duplicate, result = .ok (.ack duplicate)) ∧
    s.reports = [(c.id, c.payload)]

variable {c}

/-- What handling an ack of the packet does to it. -/
theorem handleAcks_ack {s : LockStep} {packet : PacketOut} {i : ℕ}
    (hget : s.sender.packets.get? c.id = some packet) (hi : i < seqIndexBound) :
    ∃ result, handleAcks s [ackDatagram c.id i] = .ok
      { s with
        sender := { s.sender with packets := s.sender.packets.insert c.id (packet.ack i).2 }
        acks := s.acks ++ [result] } ∧
      (∀ duplicate, (packet.ack i).1 = .ok duplicate → result = .ok (.ack duplicate)) := by
  have hhandle := SendPacketBuffer.handle_ack c.id s.sender hi
  simp only [SendPacketBuffer.ack, hget] at hhandle
  rcases hack : packet.ack i with ⟨result, packet'⟩
  rw [hack] at hhandle
  cases result with
  | error error => exact ⟨_, by simp only [handleAcks, hhandle]; rfl, by simp⟩
  | ok duplicate =>
    refine ⟨.ok (.ack duplicate), by simp only [handleAcks, hhandle]; rfl, fun duplicate' h => ?_⟩
    cases h
    rfl

/-- What delivering a part does: it panics, if the part was delivered before, or the receiver adds the
part and the sender handles its ack. -/
theorem deliver_part {s : LockStep} {S : Finset ℕ} {packet : PacketOut} {i : ℕ}
    (hknows : Knows c.payload S (s.receiver.packets.get? c.id))
    (hget : s.sender.packets.get? c.id = some packet) (hi : i < chunkCount c.payload) (now : ℕ) :
    (i ∈ S ∧ ∃ abort, c.deliver s now (chunkDatagram c.id c.payload i) = .error abort) ∨
      ∃ receiver result,
        c.deliver s now (chunkDatagram c.id c.payload i) = .ok
          { s with
            sender := { s.sender with packets := s.sender.packets.insert c.id (packet.ack i).2 }
            receiver
            acks := s.acks ++ [result]
            reports := s.reports ++
              reportOf (chunkDatagram c.id c.payload i) (.ok (.ack (partOutcome c.payload S i))) } ∧
        Knows c.payload (insert i S) (receiver.packets.get? c.id) ∧
        ∀ duplicate, (packet.ack i).1 = .ok duplicate → result = .ok (.ack duplicate) := by
  have hack : Ultinet.ack c.id i c.senderAddr (c.env now) =
      (.ok (), (c.env now).record [(c.senderAddr, ackDatagram c.id i)]
        [(c.senderAddr, ackDatagram c.id i)]) := rfl
  rcases ReceivePacketBuffer.handle_chunk hknows c.small hi c.senderAddr (c.env now) with
    ⟨hS, hpanic⟩ | ⟨receiver, hhandle, hknows', -⟩
  · refine Or.inl ⟨hS, .panic "attempt to subtract with overflow", ?_⟩
    rw [deliver, hpanic]
    rfl
  · rw [hack] at hhandle
    obtain ⟨result, hsender, hresult⟩ := handleAcks_ack
      (s := { s with
        receiver
        reports := s.reports ++
          reportOf (chunkDatagram c.id c.payload i) (.ok (.ack (partOutcome c.payload S i))) })
      hget (hi.trans c.small)
    refine Or.inr ⟨receiver, result, ?_, hknows', hresult⟩
    rw [deliver, hhandle]
    exact hsender

/-- The run starts with the first batch, and a packet of which no part is acked. -/
theorem start_eq (c : LockStepSetup) :
    ∃ packet, c.start = c.deliverAll (c.clock 0)
        ⟨⟨c.batchSize, SortedMap.empty.insert c.id packet⟩, .new,
          PacketOut.firstBatch c.id c.payload c.batchSize.val, [], []⟩
        (PacketOut.firstBatch c.id c.payload c.batchSize.val) ∧
      Sending c.id c.payload (fun _ => False) packet ∧ packet.lastSend = some (c.clock 0) ∧
      ∃ b bs, packet.packetQueue.packets = b :: bs ∧ b.acked = false := by
  have hserialize : serializePacket c.id c.threshold c.value = _ := serializePacket_eq c.small
  set serialized := if chunkCount c.value.flatten ≤ c.threshold then
    SerializedPacket.vec (chunkBuffers c.id c.value.flatten)
    else .channel (chunkBuffers c.id c.value.flatten) with hserialized
  have hvec : serialized = .vec (chunkBuffers c.id c.payload) ∨
      serialized = .channel (chunkBuffers c.id c.payload) := by
    rw [hserialized]
    split_ifs
    · exact Or.inl rfl
    · exact Or.inr rfl
  have hfirst : PacketOut.FirstBatchSent c.id c.payload c.batchSize.val c.receiverAddr
      (c.env (c.clock 0)).newUuid.2 := fun _ _ _ _ => rfl
  obtain ⟨packet, hsend, hlast⟩ := PacketOut.send_of_firstBatchSent hvec hfirst
  obtain ⟨result, attempts, bufs, hsend', -, hres⟩ := PacketOut.send_spec hvec c.receiverAddr
    c.batchSize (c.env (c.clock 0)).newUuid.2
  have hsending : Sending c.id c.payload (fun _ => False) packet := by
    rw [hsend] at hsend'
    simp only [Prod.mk.injEq] at hsend'
    rcases hres with ⟨error, herror, -⟩ | ⟨packet', hpacket', hsending⟩
    · rw [herror] at hsend'
      cases hsend'.1
    · rw [hpacket'] at hsend'
      cases hsend'.1
      exact hsending
  refine ⟨packet, ?_, hsending, hlast, PacketOut.send_front hvec hsend⟩
  have hsender : (SendPacketBuffer.new c.batchSize).send c.value c.threshold c.receiverAddr
      (c.env (c.clock 0)) =
      .ok (.ok c.id, ⟨c.batchSize, SortedMap.empty.insert c.id packet⟩,
        (c.env (c.clock 0)).newUuid.2.record
          ((PacketOut.firstBatch c.id c.payload c.batchSize.val).map (Prod.mk c.receiverAddr))
          ((PacketOut.firstBatch c.id c.payload c.batchSize.val).map (Prod.mk c.receiverAddr))) := by
    simp only [SendPacketBuffer.send, Env.newUuid, env] at hsend ⊢
    rw [hserialize]
    simp only [bind, Except.bind, SendPacketBuffer.new, hsend]
    rfl
  have hsent : ((c.env (c.clock 0)).newUuid.2.record
      ((PacketOut.firstBatch c.id c.payload c.batchSize.val).map (Prod.mk c.receiverAddr))
      ((PacketOut.firstBatch c.id c.payload c.batchSize.val).map
        (Prod.mk c.receiverAddr))).sent.map Prod.snd =
      PacketOut.firstBatch c.id c.payload c.batchSize.val := by
    simp [Env.newUuid, env, Function.comp_def]
  simp only [start, hsender, bind, Except.bind, hsent]

/-- The first batch starts with part 0. -/
theorem firstBatch_eq (c : LockStepSetup) :
    ∃ rest, PacketOut.firstBatch c.id c.payload c.batchSize.val =
        chunkDatagram c.id c.payload 0 :: rest ∧
      (∀ buf ∈ rest, ∃ i < chunkCount c.payload, 0 < i ∧ buf = chunkDatagram c.id c.payload i) ∧
      (chunkCount c.payload = 1 → rest = []) := by
  obtain ⟨n, hn⟩ : ∃ n, chunkCount c.payload = n + 1 :=
    Nat.exists_eq_succ_of_ne_zero (chunkCount_pos c.payload).ne'
  obtain ⟨m, hm⟩ : ∃ m, c.batchSize.val = m + 1 :=
    Nat.exists_eq_succ_of_ne_zero c.batchSize.property.1.ne'
  refine ⟨(((List.range n).map Nat.succ).map (chunkDatagram c.id c.payload)).take m, ?_, ?_, ?_⟩
  · rw [PacketOut.firstBatch, hn, hm, List.range_succ_eq_map, List.map_cons, List.take_succ_cons]
  · intro buf hbuf
    obtain ⟨i, hi, rfl⟩ := List.mem_map.mp (List.mem_of_mem_take hbuf)
    obtain ⟨j, hj, rfl⟩ := List.mem_map.mp hi
    rw [List.mem_range] at hj
    exact ⟨j + 1, by omega, by omega, rfl⟩
  · intro hone
    have hzero : n = 0 := by omega
    simp [hzero]

/-- The receiver knows nothing at first. -/
theorem knows_new (c : LockStepSetup) :
    Knows c.payload ∅ (ReceivePacketBuffer.new.packets.get? c.id) := rfl

/-- Nothing is dropped from a queue of which nothing is acked. -/
theorem firstUnacked_eq_zero {packet : PacketOut}
    (h : Sending c.id c.payload (fun _ => False) packet) :
    packet.packetQueue.firstUnacked = 0 := by
  by_contra hne
  exact (h.acked_iff 0).mp (BitWindow.mem_of_lt (Nat.pos_of_ne_zero hne))

/-- The ack of part 0, after the first batch was sent, marks part 0 and drops it. -/
theorem ack_front {packet : PacketOut} (h : Sending c.id c.payload (fun _ => False) packet)
    {b : PacketBuffer} {bs : List PacketBuffer} (hpackets : packet.packetQueue.packets = b :: bs)
    (hmark : b.acked = false) :
    (packet.ack 0).1 = .ok false ∧ (packet.ack 0).2.lastSend = packet.lastSend ∧
      0 < (packet.ack 0).2.packetQueue.firstUnacked ∧
      Sending c.id c.payload (fun i => i = 0) (packet.ack 0).2 := by
  obtain ⟨hresult, hdropped⟩ := PacketOut.ack_zero hpackets hmark
  obtain ⟨result, packet', hack, hlast, hcases⟩ := PacketOut.ack_spec h 0
  rw [hack] at hresult hdropped ⊢
  rcases hcases with ⟨-, hne⟩ | ⟨-, -, -, -, hsending⟩
  · exact absurd hresult hne
  · rw [firstUnacked_eq_zero h] at hsending
    exact ⟨hresult, hlast, hdropped, hsending.holds, fun i => by simpa using hsending.acked_iff i⟩

/-! ## Packets of several parts -/

/-- The sender keeps the packet, does not take part 1 for acked, and dropped part 0. -/
structure Stuck (c : LockStepSetup) (s : LockStep) (S : Finset ℕ) (packet : PacketOut)
    (acked : ℕ → Prop) : Prop where
  knows : Knows c.payload S (s.receiver.packets.get? c.id)
  kept : s.sender.packets.get? c.id = some packet
  sending : Sending c.id c.payload acked packet
  not_acked : ¬acked 1
  dropped : 0 < packet.packetQueue.firstUnacked
  started : packet.lastSend ≠ none
  only : ∀ id ≠ c.id, s.sender.packets.get? id = none

/-- A part other than part 0 is delivered. -/
theorem Stuck.deliver {s t : LockStep} {S : Finset ℕ} {packet : PacketOut} {acked : ℕ → Prop}
    (h : Stuck c s S packet acked) {i : ℕ} (hpos : 0 < i) (hi : i < chunkCount c.payload) {now : ℕ}
    (hdeliver : c.deliver s now (chunkDatagram c.id c.payload i) = .ok t) :
    ∃ S packet acked, Stuck c t S packet acked := by
  rcases deliver_part h.knows h.kept hi now with ⟨-, abort, habort⟩ | ⟨receiver, result, hok, hknows, -⟩
  · rw [habort] at hdeliver
    cases hdeliver
  · rw [hok] at hdeliver
    cases hdeliver
    obtain ⟨answer, packet', hack, hlast, hcases⟩ := PacketOut.ack_spec h.sending i
    have hdropped := PacketOut.ack_firstUnacked_le packet i
    rw [hack] at hdropped ⊢
    have hdropped' : 0 < packet'.packetQueue.firstUnacked := h.dropped.trans_le hdropped
    have hstarted : packet'.lastSend ≠ none := hlast ▸ h.started
    have honly : ∀ id ≠ c.id, (s.sender.packets.insert c.id packet').get? id = none :=
      fun id hid => (SortedMap.get?_insert_of_ne hid).trans (h.only id hid)
    rcases hcases with ⟨hsending, -⟩ | ⟨-, -, -, -, hsending⟩
    · exact ⟨_, packet', acked, hknows, SortedMap.get?_insert_self _ _ _, hsending, h.not_acked,
        hdropped', hstarted, honly⟩
    · refine ⟨_, packet', _, hknows, SortedMap.get?_insert_self _ _ _, hsending, ?_, hdropped',
        hstarted, honly⟩
      -- the position of the ack counts from a part behind part 0
      rintro (heq | hacked)
      · have := h.dropped
        omega
      · exact h.not_acked hacked

/-- Parts other than part 0 are delivered. -/
theorem Stuck.deliverAll {bufs : List Bytes} {now : ℕ} {s t : LockStep}
    (h : ∃ S packet acked, Stuck c s S packet acked)
    (hbufs : ∀ buf ∈ bufs, ∃ i < chunkCount c.payload, 0 < i ∧
      buf = chunkDatagram c.id c.payload i)
    (hdeliver : c.deliverAll now s bufs = .ok t) : ∃ S packet acked, Stuck c t S packet acked := by
  induction bufs generalizing s with
  | nil =>
    cases hdeliver
    exact h
  | cons buf bufs ih =>
    obtain ⟨S, packet, acked, hstuck⟩ := h
    obtain ⟨i, hi, hpos, rfl⟩ := hbufs buf List.mem_cons_self
    rw [LockStepSetup.deliverAll] at hdeliver
    cases hfirst : c.deliver s now (chunkDatagram c.id c.payload i) with
    | error abort =>
      rw [hfirst] at hdeliver
      cases hdeliver
    | ok u =>
      rw [hfirst] at hdeliver
      exact ih (hstuck.deliver hpos hi hfirst)
        (fun buf hbuf => hbufs buf (List.mem_cons_of_mem _ hbuf)) hdeliver

/-- Pending parts are sent and delivered. -/
theorem Stuck.round {s t : LockStep} (h : ∃ S packet acked, Stuck c s S packet acked) {now : ℕ}
    (hn : 1 < chunkCount c.payload) (hround : c.round s now = .ok t) :
    ∃ S packet acked, Stuck c t S packet acked := by
  have hpass := Transfer.sendPending_invariant
    (P := fun m net =>
      (∃ S packet acked, Stuck c { s with sender := { s.sender with packets := m } } S packet acked) ∧
        ∀ buf ∈ net, ∃ i < chunkCount c.payload, 0 < i ∧ buf = chunkDatagram c.id c.payload i)
    (fun m net id packet hP hget => by
      obtain ⟨⟨S, packet₀, acked, hstuck⟩, hnet⟩ := hP
      have hid : id = c.id := by
        by_contra hne
        rw [hstuck.only id hne] at hget
        cases hget
      subst hid
      obtain rfl : packet₀ = packet := Option.some.inj (hstuck.kept.symm.trans hget)
      refine ⟨c.payload, acked, hstuck.sending,
        fun packet' bufs hsending hlast hfront hbufs => ⟨⟨S, packet', acked, ?_⟩, ?_⟩,
        fun hdone => ?_⟩
      · exact ⟨hstuck.knows, SortedMap.get?_update_self _ _ _, hsending, hstuck.not_acked,
          hfront ▸ hstuck.dropped, fun hnone => hstuck.started (hlast.mp hnone),
          fun id hid => (SortedMap.get?_update_of_ne hid).trans (hstuck.only id hid)⟩
      · intro buf hbuf
        rcases List.mem_append.mp hbuf with hold | hnew
        · exact hnet buf hold
        · obtain ⟨i, hi, hnot, rfl⟩ := hbufs buf hnew
          refine ⟨i, hi, Nat.pos_of_ne_zero ?_, rfl⟩
          rintro rfl
          exact hnot ((hstuck.sending.acked_iff 0).mp (BitWindow.mem_of_lt hstuck.dropped))
      · -- part 1 is not acked, so the packet is not done
        rcases hdone with hnone | hall
        · exact absurd hnone hstuck.started
        · exact absurd (hall 1 hn) hstuck.not_acked)
    s.sender c.resendDelay c.receiverAddr (c.env now) []
    ⟨h, by simp [env]⟩
  rw [LockStepSetup.round] at hround
  obtain ⟨⟨S, packet, acked, hstuck⟩, hbufs⟩ := hpass
  rw [List.nil_append] at hbufs
  refine Stuck.deliverAll ⟨S, packet, acked, ?_⟩ hbufs hround
  exact ⟨hstuck.knows, hstuck.kept, hstuck.sending, hstuck.not_acked, hstuck.dropped,
    hstuck.started, hstuck.only⟩

/-- The first batch is sent and delivered. -/
theorem stuck_start {s : LockStep} (hstart : c.start = .ok s) :
    ∃ S packet acked, Stuck c s S packet acked := by
  obtain ⟨packet, heq, hsending, hlast, b, bs, hpackets, hmark⟩ := c.start_eq
  obtain ⟨rest, hbatch, hrest, -⟩ := c.firstBatch_eq
  obtain ⟨-, hlast', hdropped, hsending'⟩ := ack_front hsending hpackets hmark
  rw [heq, hbatch, LockStepSetup.deliverAll] at hstart
  rcases deliver_part (s := ⟨⟨c.batchSize, SortedMap.empty.insert c.id packet⟩, .new,
      chunkDatagram c.id c.payload 0 :: rest, [], []⟩) c.knows_new (SortedMap.get?_insert_self _ _ _)
    (chunkCount_pos c.payload) (c.clock 0) with ⟨hmem, -⟩ | ⟨receiver, result, hok, hknows, -⟩
  · cases hmem
  · rw [hok] at hstart
    refine Stuck.deliverAll ⟨_, (packet.ack 0).2, fun i => i = 0, hknows,
      SortedMap.get?_insert_self _ _ _, hsending', by simp, hdropped, ?_, fun id hid => ?_⟩ hrest
      hstart
    · rw [hlast', hlast]
      simp
    · exact (SortedMap.get?_insert_of_ne hid).trans (SortedMap.get?_insert_of_ne hid)

/-- A packet of several parts stays with the sender all along the run. -/
theorem stuck_lockStep (hn : 1 < chunkCount c.payload) (k : ℕ) {s : LockStep}
    (hrun : c.lockStep k = .ok s) : ∃ S packet acked, Stuck c s S packet acked := by
  induction k generalizing s with
  | zero => exact stuck_start hrun
  | succ k ih =>
    rw [lockStep] at hrun
    cases hprev : c.lockStep k with
    | error abort =>
      rw [hprev] at hrun
      cases hrun
    | ok u =>
      rw [hprev] at hrun
      exact Stuck.round (ih hprev) hn hrun

theorem not_completes (hn : 1 < chunkCount c.payload) : ¬c.Completes := by
  rintro ⟨k, -, s, hrun, hdropped, -⟩
  obtain ⟨S, packet, acked, hstuck⟩ := stuck_lockStep hn k hrun
  rw [hstuck.kept] at hdropped
  cases hdropped

/-! ## Packets of one part -/

/-- Visiting the only packet, which is acked as a whole. -/
theorem sendPending_single {sender : SendPacketBuffer} {packet : PacketOut} {lastSend now : ℕ}
    (hentries : sender.packets.entries = [(c.id, packet)])
    (hsending : Sending c.id c.payload (fun i => i = 0) packet)
    (hone : chunkCount c.payload = 1) (hlast : packet.lastSend = some lastSend)
    (hdue : c.resendDelay ≤ elapsed now lastSend) :
    ∃ sender' : SendPacketBuffer, sender'.packets.get? c.id = none ∧
      sender.sendPending c.resendDelay c.receiverAddr (c.env now) =
        (.ok (), sender', (c.env now).record [(c.receiverAddr, doneDatagram c.id)]
          [(c.receiverAddr, doneDatagram c.id)]) := by
  have hdue' : c.resendDelay ≤ elapsed (c.env now).now lastSend := hdue
  have hanswer : (c.env now).answer (c.env now).attempts (c.receiverAddr, doneDatagram c.id) =
      .sent := rfl
  obtain ⟨packet', hsend⟩ := PacketOut.sendPending_of_acked hsending (fun i hi => by omega) hlast
    hdue' hanswer
  refine ⟨(sender.sendPending c.resendDelay c.receiverAddr (c.env now)).2.1, ?_, ?_⟩
  · simp [SendPacketBuffer.sendPending, SortedMap.retainState, hentries, SortedMap.retainEntries,
      SendPacketBuffer.visit, hsend, SortedMap.get?, SortedMap.lookupEntry]
  · simp [SendPacketBuffer.sendPending, SortedMap.retainState, hentries, SortedMap.retainEntries,
      SendPacketBuffer.visit, hsend]

/-- A packet of one part is done after pending parts were sent once. -/
theorem completes_of_one (hone : chunkCount c.payload = 1) : c.Completes := by
  obtain ⟨packet, heq, hsending, hlast, b, bs, hpackets, hmark⟩ := c.start_eq
  obtain ⟨rest, hbatch, -, hrest⟩ := c.firstBatch_eq
  obtain ⟨hresult, hlast', -, hsending'⟩ := ack_front hsending hpackets hmark
  obtain rfl := hrest hone
  -- the only part is delivered, and its ack
  have hstart : ∃ s, c.start = .ok s ∧
      s.sender.packets.entries = [(c.id, (packet.ack 0).2)] ∧ s.acks = [.ok (.ack false)] ∧
      s.reports = [(c.id, c.payload)] := by
    rw [heq, hbatch]
    rcases deliver_part (s := ⟨⟨c.batchSize, SortedMap.empty.insert c.id packet⟩, .new,
        [chunkDatagram c.id c.payload 0], [], []⟩) c.knows_new (SortedMap.get?_insert_self _ _ _)
      (chunkCount_pos c.payload) (c.clock 0) with ⟨hmem, -⟩ | ⟨receiver, result, hok, -, haccept⟩
    · cases hmem
    · refine ⟨_, by rw [LockStepSetup.deliverAll, hok]; rfl, ?_, ?_, ?_⟩
      · simp [SortedMap.insert, SortedMap.empty, SortedMap.insertEntry]
      · simp [haccept false hresult]
      · simp [reportOf, partOutcome, hone]
  obtain ⟨s, hs, hentries, hacks, hreports⟩ := hstart
  have hdue : c.resendDelay ≤ elapsed (c.clock 1) (c.clock 0) := by
    have hdelayed := c.delayed 0
    rw [Nat.zero_add] at hdelayed
    unfold elapsed
    omega
  obtain ⟨sender', hdropped, hsend⟩ := sendPending_single hentries hsending' hone
    (hlast'.trans hlast) hdue
  -- the `Done` is delivered
  have hround : ∃ t, c.round s (c.clock 1) = .ok t ∧ t.sender = sender' ∧
      doneDatagram c.id ∈ t.sent ∧ t.acks = s.acks ∧ t.reports = s.reports := by
    refine ⟨{ s with
      sender := sender'
      receiver := { s.receiver with packets := s.receiver.packets.erase c.id }
      sent := s.sent ++ [doneDatagram c.id] }, ?_, rfl, by simp, rfl, rfl⟩
    simp only [LockStepSetup.round, hsend, Env.record_sent, List.map_append, List.map_singleton]
    simp [env, LockStepSetup.deliverAll, deliver, ReceivePacketBuffer.handle_done, bind, Except.bind,
      handleAcks, reportOf]
  obtain ⟨t, ht, hsender, hdone, hacks', hreports'⟩ := hround
  refine ⟨1, by omega, t, ?_, by rw [hsender, hdropped], hdone, ?_, by rw [hreports', hreports]⟩
  · rw [lockStep, lockStep, hs]
    exact ht
  · rw [hacks', hacks]
    simp

/-- **When a transfer completes.**  A lock-step run over a perfect network completes if and only if
the packet has one part, that is, at most 491 bytes. -/
theorem completes_iff (c : LockStepSetup) : c.Completes ↔ c.value.flatten.length ≤ 491 := by
  have hpos := chunkCount_pos c.payload
  have hone : chunkCount c.payload = 1 ↔ c.value.flatten.length ≤ 491 :=
    Chunking.count_eq_one_iff partPacketPayloadSize_pos
  rw [← hone]
  constructor
  · intro h
    by_contra hne
    exact not_completes (by omega) h
  · exact fun h => completes_of_one h

/-- A packet of 492 bytes, which takes two parts. -/
def twoParts : LockStepSetup where
  senderAddr := 1
  receiverAddr := 2
  id := .replicate 7
  batchSize := ConnectionConfig.default.initialSendBatchSize
  threshold := 8
  value := [List.replicate 492 1]
  resendDelay := 1
  clock := fun k => k
  delayed := fun _ => le_rfl
  small := by decide +kernel

/-- A packet of two parts never completes. -/
theorem twoParts_not_completes : ¬twoParts.Completes :=
  not_completes (by decide +kernel)

end LockStepSetup

end Ultinet
