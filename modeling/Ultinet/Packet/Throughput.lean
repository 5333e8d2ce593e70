import Ultinet.Packet.BlockedSocket
import Ultinet.Packet.Duplex
import Ultinet.Packet.GiveUp

/-!
# How much a peer sends

Two things limit what a peer sends.  The parts of a packet are sent in batches, and a batch follows
the one before it only after the resend delay (`Clocked.batches_apart`).  And batches do not grow
forever: however many packets get acked, a batch is never larger than the initial batch size, or twice
as large as the largest packet (`Peer.batchSize_le`).

Both hold whatever arrives at the peer.
-/

namespace Ultinet

/-! ## The size of batches -/

namespace PacketQueue

/-- No batch is larger than all parts together. -/
theorem length_unacked_le (q : PacketQueue) (count : ℕ) :
    (q.unacked count).1.length ≤ q.parts.length := by
  have hpending : (pending (q.pull count).packets).length ≤ (q.pull count).packets.length :=
    List.length_filter_le _ _
  have hparts : (q.pull count).packets.length ≤ (q.pull count).parts.length := by
    rw [parts, List.length_append]
    exact Nat.le_add_right _ _
  rw [q.parts_pull count] at hparts
  rw [q.length_unacked count, length_pendingParts]
  omega

/-- Acks only drop parts. -/
theorem length_parts_ack (q : PacketQueue) (seqIndex : ℕ) :
    (q.ack seqIndex).2.parts.length ≤ q.parts.length := by
  unfold PacketQueue.ack
  split
  · exact le_rfl
  · split_ifs
    · exact le_rfl
    · simp only [parts, List.length_append, List.length_drop, List.length_set]
      omega

end PacketQueue

namespace PacketOut

variable {p : PacketOut} {id : PacketId} {addr : SocketAddr} {env env' : Env} {initial n : ℕ}

/-- The packet has at most `n` parts, and so has its last batch; its batch size is at most the initial
one or twice that. -/
structure Sized (initial n : ℕ) (p : PacketOut) : Prop where
  parts : p.packetQueue.parts.length ≤ n
  last : p.lastBatchSize ≤ n
  batch : p.batchSize.val ≤ max initial (2 * n)

theorem Sized.mono {m : ℕ} (h : p.Sized initial n) (hle : n ≤ m) : p.Sized initial m where
  parts := h.parts.trans hle
  last := h.last.trans hle
  batch := h.batch.trans (max_le_max_left _ (by omega))

/-- The next batch is not larger than twice the last one, if it is larger than it was allowed to be. -/
theorem balanced_le (p : PacketOut) (hfit : p.batchSize.val ≤ max initial (2 * n))
    (hlast : p.lastBatchSize ≤ n) : p.balanced.val ≤ max initial (2 * n) := by
  have hpositive := p.batchSize.property.1
  have hnew : ∀ k, ((NonZeroBatchSize.new k).getD .min).val ≤ max 1 k := by
    intro k
    unfold NonZeroBatchSize.new
    split_ifs
    · exact le_max_right 1 k
    · exact le_max_left 1 k
  unfold balanced balanceBatchSize
  split_ifs
  · have hdouble := hnew (min (p.lastBatchSize * 2) batchSizeMax)
    rcases max_cases p.batchSize
      ((NonZeroBatchSize.new (min (p.lastBatchSize * 2) batchSizeMax)).getD .min) with
      ⟨heq, -⟩ | ⟨heq, -⟩
    · rw [heq]
      exact hfit
    · rw [heq]
      omega
  · have hhalf := hnew (p.batchSize.val / 2)
    refine hhalf.trans ?_
    omega

/-- A new packet. -/
theorem sized_send {threshold : ℕ} {value : List Bytes} {serialized : SerializedPacket}
    {batchSize : NonZeroBatchSize} (hsmall : chunkCount value.flatten < seqIndexBound)
    (hserialize : serializePacket id threshold value = .ok serialized)
    (hsend : send serialized addr batchSize env = (.ok p, env'))
    (hbatch : batchSize.val ≤ max initial (2 * n)) (hn : chunkCount value.flatten ≤ n) :
    p.Sized initial n := by
  have hparts : (PacketQueue.new serialized).parts.length = chunkCount value.flatten := by
    rw [serializePacket_eq hsmall] at hserialize
    cases hserialize
    split_ifs <;> simp [PacketQueue.new, PacketQueue.parts]
  obtain ⟨-, -, hcount, hqueue, -⟩ := send_batch hsend
  have hle := (PacketQueue.new serialized).length_unacked_le batchSize.val
  refine ⟨?_, by omega, ?_⟩
  · rw [hqueue, PacketQueue.parts_pull, hparts]
    exact hn
  · have hsame : p.batchSize = batchSize := by
      unfold send at hsend
      dsimp only at hsend
      split at hsend <;> cases hsend
      rfl
    rw [hsame]
    exact hbatch

theorem Sized.ack (h : p.Sized initial n) (seqIndex : ℕ) : (p.ack seqIndex).2.Sized initial n := by
  have hparts := p.packetQueue.length_parts_ack seqIndex
  unfold PacketOut.ack
  dsimp only
  split <;> rename_i heq <;> rw [heq] at hparts <;> exact ⟨hparts.trans h.parts, h.last, h.batch⟩

theorem Sized.sendPending (h : p.Sized initial n) (id : PacketId) (resendDelay : ℕ)
    (addr : SocketAddr) (env : Env) :
    (p.sendPending id resendDelay addr env).2.1.Sized initial n := by
  have hbalanced := p.balanced_le h.batch h.last
  have houtcome := p.sendPending_outcome id resendDelay addr env
  have hparts := (p.sendPending_parts id resendDelay addr env).1
  generalize (p.sendPending id resendDelay addr env).1 = result at houtcome
  generalize (p.sendPending id resendDelay addr env).2.1 = p' at houtcome hparts ⊢
  generalize (p.sendPending id resendDelay addr env).2.2 = env' at houtcome
  have hle : p'.packetQueue.parts.length ≤ n := hparts ▸ h.parts
  cases houtcome with
  | canceled | early => exact h
  | failed | finished => exact ⟨hle, h.last, hbalanced⟩
  | resent _ _ _ count sent hsend =>
    obtain ⟨-, hcount⟩ := PacketQueue.sendUnacked_count hsend
    exact ⟨hle, hcount.trans ((p.packetQueue.length_unacked_le _).trans h.parts), hbalanced⟩

end PacketOut

namespace SendPacketBuffer

variable {b : SendPacketBuffer} {id : PacketId} {addr : SocketAddr} {env env' : Env} {initial n : ℕ}

/-- All packets have at most `n` parts, and all batch sizes are bounded accordingly. -/
structure Sized (initial n : ℕ) (b : SendPacketBuffer) : Prop where
  batch : b.batchSize.val ≤ max initial (2 * n)
  packets : ∀ id p, b.packets.get? id = some p → p.Sized initial n

theorem Sized.mono {m : ℕ} (h : b.Sized initial n) (hle : n ≤ m) : b.Sized initial m where
  batch := h.batch.trans (max_le_max_left _ (by omega))
  packets := fun id p hget => (h.packets id p hget).mono hle

theorem Sized.handle (h : b.Sized initial n) (buf : Bytes) :
    (b.handleFields buf).2.Sized initial n := by
  rcases b.handle_cases buf with hsame | ⟨id, seqIndex, hack⟩
  · rw [hsame]
    exact h
  · rw [hack]
    refine ⟨?_, fun k p hget => ?_⟩
    · unfold ack
      split
      · exact h.batch
      · dsimp only
        split <;> exact h.batch
    · rw [get?_ack] at hget
      split_ifs at hget with hk
      · obtain ⟨p', hp', rfl⟩ := Option.map_eq_some_iff.mp hget
        exact (h.packets id p' hp').ack seqIndex
      · exact h.packets k p hget

theorem Sized.timeoutPackets (h : b.Sized initial n) (maxMissedAcks : ℕ) :
    (b.timeoutPackets maxMissedAcks).Sized initial n where
  batch := h.batch
  packets := by
    intro id p hget
    simp only [SendPacketBuffer.timeoutPackets, SortedMap.get?_retain,
      Option.filter_eq_some_iff] at hget
    exact h.packets id p hget.1

/-- What a pass has added up is the sum of as many batch sizes, so their average is bounded as well. -/
theorem Sized.sendPending (h : b.Sized initial n) (resendDelay : ℕ) (addr : SocketAddr) (env : Env) :
    (b.sendPending resendDelay addr env).2.1.Sized initial n := by
  have hpass := SortedMap.retainState_invariant (f := visit resendDelay addr)
    (I := fun pass m => pass.batchSize ≤ pass.count * max initial (2 * n) ∧
      ∀ id p, m.get? id = some p → p.Sized initial n)
    (s := { batchSize := 0, count := 0, result := .ok (), env }) (m := b.packets) ?_
    ⟨by simp, h.packets⟩
  · obtain ⟨hsum, hpackets⟩ := hpass
    have hpositive := b.batchSize.property.1
    refine ⟨?_, hpackets⟩
    simp only [SendPacketBuffer.sendPending]
    split_ifs with hcount
    · exact h.batch
    · have haverage := Nat.div_le_of_le_mul hsum
      unfold NonZeroBatchSize.new
      split_ifs
      · exact (min_le_left _ _).trans haverage
      · exact le_trans hpositive h.batch
  · rintro pass m id p ⟨hsum, hpackets⟩ hget
    have hp := hpackets id p hget
    have hafter := hp.sendPending id resendDelay addr pass.env
    have hadded : pass.batchSize + p.batchSize.val ≤ (pass.count + 1) * max initial (2 * n) := by
      rw [Nat.add_mul, Nat.one_mul]
      exact Nat.add_le_add hsum hp.batch
    have hkept : ∀ p' : Option PacketOut, (∀ q, p' = some q → q.Sized initial n) →
        ∀ k q, (m.update id p').get? k = some q → q.Sized initial n := by
      intro p' hp' k q hq
      rw [SortedMap.get?_update] at hq
      split_ifs at hq
      · exact hp' q hq
      · exact hpackets k q hq
    unfold visit
    dsimp only
    split
    · exact ⟨hadded, hkept _ fun q hq => Option.some.inj hq ▸ hp⟩
    · split <;> rename_i heq <;> rw [heq] at hafter
      · refine ⟨hadded, hkept _ fun q hq => ?_⟩
        split_ifs at hq
        exact Option.some.inj hq ▸ hafter
      · exact ⟨hadded, hkept _ fun q hq => Option.some.inj hq ▸ hafter⟩

end SendPacketBuffer

namespace Peer

variable {addr : SocketAddr} {p p' : Peer} {batchSize : NonZeroBatchSize}

/-- The transition system of one peer, whatever arrives at it. -/
def system (addr : SocketAddr) : Lts Peer PeerInput where
  step := step addr

/-- Packets take fewer than `2 ^ 32` parts. -/
def Small (_ : Peer) : PeerInput → Prop
  | .send _ value _ => chunkCount value.flatten < seqIndexBound
  | _ => True

instance decidableSmall (p : Peer) : (input : PeerInput) → Decidable (Small p input)
  | .send _ value _ => inferInstanceAs (Decidable (chunkCount value.flatten < seqIndexBound))
  | .update _ _ _ _ => inferInstanceAs (Decidable True)
  | .handle _ _ => inferInstanceAs (Decidable True)

/-- The log only grows. -/
theorem step_log {input : PeerInput} (h : p.step addr input = some p') : p.log ⊆ p'.log := by
  cases input with
  | send threshold value env =>
    simp only [step] at h
    split at h <;> cases h
    exact List.subset_append_left _ _
  | update resendDelay maxMissedAcks receiveTimeout env =>
    cases h
    exact List.Subset.refl _
  | handle buf env =>
    simp only [step] at h
    split at h <;> cases h
    exact List.Subset.refl _

/-- What one step makes of the bounds. -/
theorem sized_step {input : PeerInput} {initial n : ℕ} (h : p.buffers.sendBuffer.Sized initial n)
    (hsmall : Small p input) (hstep : p.step addr input = some p')
    (hn : ∀ entry ∈ p'.log, chunkCount entry.2 ≤ n) : p'.buffers.sendBuffer.Sized initial n := by
  cases input with
  | send threshold value env =>
    simp only [step] at hstep
    split at hstep
    · cases hstep
    · rename_i result buffers env' hsend
      cases hstep
      have hvalue := hn (env.uuid 0, value.flatten) (List.mem_append_right _ List.mem_cons_self)
      obtain ⟨serialized, hserialize, ⟨error, -, -, rfl⟩ | ⟨packet, hpacket, -, rfl⟩⟩ :=
        PacketBuffers.send_cases hsend
      · exact h
      · refine ⟨h.batch, fun id q hget => ?_⟩
        simp only [SortedMap.get?_insert] at hget
        split_ifs at hget with hid
        · cases hget
          exact PacketOut.sized_send hsmall hserialize hpacket h.batch hvalue
        · exact h.packets id q hget
  | update resendDelay maxMissedAcks receiveTimeout env =>
    cases hstep
    have hkept : (p.buffers.timeoutPackets maxMissedAcks receiveTimeout
        env.start).sendBuffer.Sized initial n := by
      cases maxMissedAcks with
      | none => exact h
      | some m => exact h.timeoutPackets m
    exact hkept.sendPending resendDelay addr env.start
  | handle buf env =>
    simp only [step] at hstep
    split at hstep
    · cases hstep
    · rename_i result buffers env' hhandle
      cases hstep
      obtain ⟨received, -, hsend, -⟩ := PacketBuffers.handle_halves hhandle
      rw [hsend]
      exact h.handle buf

/-- A packet of three parts is sent in batches of one part, which are all acked. -/
def ackedBatches : List PeerInput :=
  [.send 4 [.replicate 1200 0] (.accepting 0), .handle (ackDatagram (.replicate 7) 0) (.accepting 1),
    .update 0 none none (.accepting 2), .update 9 none none (.accepting 3)]

/-- **Batches do not grow forever.**  In every run of a peer, whatever is acked and however often, the
batch size for new packets and that of every packet being sent are at most the initial one, or twice
the number of parts of the largest packet that was ever sent. -/
theorem batchSize_le (hrun : (system addr).GuardedRun Small (init batchSize) p) {n : ℕ}
    (hn : ∀ entry ∈ p.log, chunkCount entry.2 ≤ n) :
    p.buffers.sendBuffer.batchSize.val ≤ max batchSize.val (2 * n) ∧
      ∀ id packet, p.buffers.sendBuffer.packets.get? id = some packet →
        packet.batchSize.val ≤ max batchSize.val (2 * n) ∧ packet.lastBatchSize ≤ n := by
  have hinv : ∀ n, (∀ entry ∈ p.log, chunkCount entry.2 ≤ n) →
      p.buffers.sendBuffer.Sized batchSize.val n := by
    refine hrun.invariant (I := fun p : Peer => ∀ n, (∀ entry ∈ p.log, chunkCount entry.2 ≤ n) →
      p.buffers.sendBuffer.Sized batchSize.val n) ?_ ?_
    · intro p input p' hp hsmall hstep n hn
      exact sized_step (hp n fun entry hentry => hn entry (step_log hstep hentry)) hsmall hstep hn
    · intro n _
      exact ⟨le_max_left _ _, by simp [init, PacketBuffers.new, SendPacketBuffer.new]⟩
  have hsized := hinv n hn
  exact ⟨hsized.batch, fun id packet hget =>
    ⟨(hsized.packets id packet hget).batch, (hsized.packets id packet hget).last⟩⟩

theorem batchSize_le_acked :
    ∃ p, (system 1).GuardedRun Small (init ⟨1, by decide⟩) p ∧
      p.buffers.sendBuffer.batchSize.val = 2 ∧
      p.buffers.sendBuffer.batchSize.val ≤ max 1 (2 * 3) := by
  obtain ⟨p, hrun, hp⟩ := Lts.exists_guardedRun (system 1) Small
    (fun p input => decide (Small p input)) (init ⟨1, by decide⟩) ackedBatches
    (fun p => p.buffers.sendBuffer.batchSize.val = 2 ∧
      ∀ entry ∈ p.log, chunkCount entry.2 ≤ 3)
    (fun _ _ _ => of_decide_eq_true) (by decide +kernel)
  obtain ⟨hsize, hlog⟩ := of_decide_eq_true hp
  exact ⟨p, hrun, hsize, (batchSize_le hrun hlog).1⟩

end Peer

/-! ## Which datagrams are parts -/

/-- The packet of which a datagram is a part. -/
def partOf (buf : Bytes) : Option PacketId :=
  match buf.head?.bind PacketKind.tryFrom with
  | some .part | some .lastPart => datagramId buf
  | _ => none

/-- The parts of a packet among some datagrams. -/
def batchOf (id : PacketId) (bufs : List Bytes) : List Bytes :=
  bufs.filter fun buf => decide (partOf buf = some id)

section BatchOf

variable {id id' : PacketId} {bufs bufs' : List Bytes}

@[simp] theorem partOf_partDatagram (last : Bool) (id : PacketId) (k : ℕ) (payload : Bytes) :
    partOf (partDatagram last id k payload) = some id := by
  have hid : datagramId (partDatagram last id k payload) = some id :=
    Transfer.datagramId_partDatagram last k
  unfold partOf
  cases last <;>
  · rw [hid]
    rfl

@[simp] theorem partOf_doneDatagram (id : PacketId) : partOf (doneDatagram id) = none := by
  rw [doneDatagram_eq]
  rfl

@[simp] theorem partOf_ackDatagram (id : PacketId) (k : ℕ) : partOf (ackDatagram id k) = none := by
  rw [ackDatagram_eq]
  rfl

@[simp] theorem batchOf_nil : batchOf id [] = [] := rfl

@[simp] theorem batchOf_append : batchOf id (bufs ++ bufs') = batchOf id bufs ++ batchOf id bufs' :=
  List.filter_append _ _

theorem batchOf_eq_nil (h : ∀ buf ∈ bufs, partOf buf ≠ some id) : batchOf id bufs = [] :=
  List.filter_eq_nil_iff.mpr fun buf hbuf => by simpa using h buf hbuf

end BatchOf

/-! ## The parts that a call sends -/

namespace PacketQueue

/-- Parts are sent, as many as are counted unless a send fails. -/
theorem sendUnacked_parts {id : PacketId} {q : PacketQueue} (hq : q.AllParts id)
    (batchSize : NonZeroBatchSize) (addr : SocketAddr) (env : Env) :
    ∃ tried bufs : List Bytes, (q.sendUnacked batchSize addr env).2.2 =
        env.record (tried.map (Prod.mk addr)) (bufs.map (Prod.mk addr)) ∧
      (∀ buf ∈ bufs, partOf buf = some id) ∧
      ∀ count all, (q.sendUnacked batchSize addr env).1 = .ok (count, all) → bufs.length = count := by
  obtain ⟨k, hk, tried, henv, hresult⟩ :=
    sendBuffers_spec addr 0 (q.unacked batchSize.val).1 env
  refine ⟨tried, (q.unacked batchSize.val).1.take k, henv, fun buf hbuf => ?_, fun count all hok => ?_⟩
  · obtain ⟨b, hb, -, rfl⟩ := mem_unacked (List.mem_of_mem_take hbuf)
    obtain ⟨last, i, payload, hderef⟩ := hq b hb
    rw [hderef, partOf_partDatagram]
  · have hsend : (sendBuffers addr 0 (q.unacked batchSize.val).1 env).1 = .ok (count, all) := hok
    rcases hresult with ⟨error, herror, -⟩ | hsent
    · rw [herror] at hsend
      cases hsend
    · rw [hsent] at hsend
      simp only [Except.ok.injEq, Prod.mk.injEq] at hsend
      rw [List.length_take]
      omega

end PacketQueue

namespace PacketOut

variable {p : PacketOut} {id : PacketId} {addr : SocketAddr} {env env' : Env}

/-- The `Done` of a packet is not one of its parts. -/
theorem done_parts (id : PacketId) (addr : SocketAddr) (env : Env) :
    (done id addr env).2.now = env.now ∧ ∃ bufs : List Bytes,
      (done id addr env).2.sent.map Prod.snd = env.sent.map Prod.snd ++ bufs ∧
      ∀ buf ∈ bufs, partOf buf = none := by
  unfold done
  rcases env.send_cases addr (doneDatagram id) with ⟨hsend, -⟩ | ⟨hsend, -⟩ | ⟨error, hsend, -⟩ <;>
    rw [hsend]
  · refine ⟨rfl, [doneDatagram id], by simp, fun buf hbuf => ?_⟩
    rw [List.mem_singleton.mp hbuf, partOf_doneDatagram]
  · exact ⟨rfl, [], by simp, by simp⟩
  · exact ⟨rfl, [], by simp, by simp⟩

/-- **What a call of `sendPending` sends.**  Either it sends no parts, or it is time for the next batch:
parts of this packet are sent, and the time is remembered unless a send fails. -/
theorem sendPending_batches (hp : p.packetQueue.AllParts id) (resendDelay : ℕ) (addr : SocketAddr)
    (env : Env) :
    ∃ bufs : List Bytes, (p.sendPending id resendDelay addr env).2.2.sent.map Prod.snd =
        env.sent.map Prod.snd ++ bufs ∧
      (p.sendPending id resendDelay addr env).2.2.now = env.now ∧
      (∀ buf ∈ bufs, partOf buf = none ∨ partOf buf = some id) ∧
      ((batchOf id bufs = [] ∧
          (p.sendPending id resendDelay addr env).2.1.lastSend = p.lastSend) ∨
        (∃ lastSend, p.lastSend = some lastSend ∧ resendDelay ≤ elapsed env.now lastSend ∧
          (p.sendPending id resendDelay addr env).2.1.lastSend = some env.now) ∨
        ∃ error, (p.sendPending id resendDelay addr env).1 = .error error) := by
  obtain ⟨tried, bufs, henv, hbufs, hcount⟩ :=
    PacketQueue.sendUnacked_parts hp p.balanced addr env
  replace henv : (p.nextBatch addr env).2.2 = _ := henv
  have hsent : (p.nextBatch addr env).2.2.sent.map Prod.snd = env.sent.map Prod.snd ++ bufs := by
    rw [henv]
    simp [Function.comp_def]
  have hnow : (p.nextBatch addr env).2.2.now = env.now := by rw [henv, Env.record_now]
  have houtcome := p.sendPending_outcome id resendDelay addr env
  generalize (p.sendPending id resendDelay addr env).1 = result at houtcome ⊢
  generalize (p.sendPending id resendDelay addr env).2.1 = p' at houtcome ⊢
  generalize (p.sendPending id resendDelay addr env).2.2 = env' at houtcome ⊢
  cases houtcome with
  | canceled hlast =>
    obtain ⟨hnow', bufs', hsent', hbufs'⟩ := done_parts id addr env
    refine ⟨bufs', hsent', hnow', fun buf hbuf => Or.inl (hbufs' buf hbuf), Or.inl ⟨?_, rfl⟩⟩
    exact batchOf_eq_nil fun buf hbuf => by rw [hbufs' buf hbuf]; simp
  | early => exact ⟨[], by simp, rfl, by simp, Or.inl ⟨rfl, rfl⟩⟩
  | failed lastSend hlast hdue error =>
    exact ⟨bufs, hsent, hnow, fun buf hbuf => Or.inr (hbufs buf hbuf), Or.inr (Or.inr ⟨error, rfl⟩)⟩
  | finished lastSend hlast hdue hzero =>
    obtain ⟨hnow', bufs', hsent', hbufs'⟩ := done_parts id addr (p.nextBatch addr env).2.2
    have hnil : bufs = [] := List.length_eq_zero_iff.mp (hcount 0 true hzero)
    rw [hsent, hnil, List.append_nil] at hsent'
    refine ⟨bufs', hsent', hnow'.trans hnow, fun buf hbuf => Or.inl (hbufs' buf hbuf),
      Or.inl ⟨?_, rfl⟩⟩
    exact batchOf_eq_nil fun buf hbuf => by rw [hbufs' buf hbuf]; simp
  | resent lastSend hlast hdue =>
    refine ⟨bufs, hsent, hnow, fun buf hbuf => Or.inr (hbufs buf hbuf),
      Or.inr (Or.inl ⟨lastSend, hlast, hdue, ?_⟩)⟩
    rw [hnow]

/-- A new packet: its first batch is sent now, and the time is remembered unless the packet counts as
canceled. -/
theorem send_batches {threshold : ℕ} {value : List Bytes} {serialized : SerializedPacket}
    {batchSize : NonZeroBatchSize} {result : IoResult PacketOut}
    (hserialize : serializePacket id threshold value = .ok serialized)
    (hsend : send serialized addr batchSize env = (result, env')) :
    ∃ bufs : List Bytes, env'.sent.map Prod.snd = env.sent.map Prod.snd ++ bufs ∧
      (∀ buf ∈ bufs, partOf buf = some id) ∧
      ∀ p, result = .ok p → p.packetQueue.AllParts id ∧ ∀ last, p.lastSend = some last → last = env.now := by
  have hbuilt := serializePacket_built hserialize
  have hnew : (PacketQueue.new serialized).AllParts id := by
    intro b hb
    rw [PacketQueue.parts_new] at hb
    obtain ⟨last, k, hb'⟩ := hbuilt b hb
    exact ⟨last, k, b.payload, hb'.hasHeader.deref⟩
  obtain ⟨tried, bufs, henv, hbufs, -⟩ := PacketQueue.sendUnacked_parts hnew batchSize addr env
  have hqueue : ((PacketQueue.new serialized).sendUnacked batchSize addr env).2.1 =
      (PacketQueue.new serialized).pull batchSize.val := rfl
  have hparts : ((PacketQueue.new serialized).pull batchSize.val).AllParts id := by
    intro b hb
    rw [PacketQueue.parts_pull] at hb
    exact hnew b hb
  unfold send at hsend
  dsimp only at hsend
  generalize (PacketQueue.new serialized).sendUnacked batchSize addr env = sent at hsend henv hqueue
  obtain ⟨outcome, queue, env''⟩ := sent
  dsimp only at henv hqueue
  subst henv hqueue
  refine ⟨bufs, ?_, hbufs, ?_⟩
  · cases outcome <;> cases hsend <;> simp [Function.comp_def]
  · rintro p rfl
    cases outcome with
    | error error => cases hsend
    | ok batch =>
      obtain ⟨count, all⟩ := batch
      cases hsend
      refine ⟨hparts, fun last hlast => ?_⟩
      split_ifs at hlast
      exact (Option.some.inj hlast).symm

/-- Acks do not change when the last batch was sent. -/
theorem ack_lastSend (p : PacketOut) (seqIndex : ℕ) : (p.ack seqIndex).2.lastSend = p.lastSend := by
  unfold PacketOut.ack
  dsimp only
  split <;> rfl

theorem allParts_ack (h : p.packetQueue.AllParts id) (seqIndex : ℕ) :
    (p.ack seqIndex).2.packetQueue.AllParts id := by
  have hqueue := h.ack seqIndex
  unfold PacketOut.ack
  dsimp only
  split <;> rename_i heq <;> rw [heq] at hqueue <;> exact hqueue

end PacketOut

namespace SendPacketBuffer

variable {b : SendPacketBuffer} {addr : SocketAddr} {env : Env}

/-- All packets being sent consist of parts. -/
def AllParts (b : SendPacketBuffer) : Prop :=
  ∀ id p, b.packets.get? id = some p → p.packetQueue.AllParts id

/-- What a visit of another packet leaves alone: the clock and the parts of this packet; and it does
not undo an error. -/
structure LeavesAlone (id : PacketId) (pass pass' : Pass) : Prop where
  now : pass'.env.now = pass.env.now
  batch : batchOf id (pass'.env.sent.map Prod.snd) = batchOf id (pass.env.sent.map Prod.snd)
  result : pass'.result = .ok () → pass.result = .ok ()

theorem LeavesAlone.refl (id : PacketId) (pass : Pass) : LeavesAlone id pass pass :=
  ⟨rfl, rfl, fun h => h⟩

theorem LeavesAlone.trans {id : PacketId} {pass pass' pass'' : Pass} (h : LeavesAlone id pass pass')
    (h' : LeavesAlone id pass' pass'') : LeavesAlone id pass pass'' :=
  ⟨h'.now.trans h.now, h'.batch.trans h.batch, fun hok => h.result (h'.result hok)⟩

/-- What the visit of a packet sends. -/
theorem visit_batches {id : PacketId} {p : PacketOut} (hp : p.packetQueue.AllParts id)
    (resendDelay : ℕ) (addr : SocketAddr) (pass : Pass) :
    ∃ bufs : List Bytes, (visit resendDelay addr pass id p).1.env.sent.map Prod.snd =
        pass.env.sent.map Prod.snd ++ bufs ∧
      (visit resendDelay addr pass id p).1.env.now = pass.env.now ∧
      (∀ buf ∈ bufs, partOf buf = none ∨ partOf buf = some id) ∧
      ((visit resendDelay addr pass id p).1.result = .ok () → pass.result = .ok ()) ∧
      ((visit resendDelay addr pass id p).1.result = .ok () →
        ∀ p', (visit resendDelay addr pass id p).2 = some p' →
          (batchOf id bufs = [] ∧ p'.lastSend = p.lastSend) ∨
            ∃ lastSend, p.lastSend = some lastSend ∧ resendDelay ≤ elapsed pass.env.now lastSend ∧
              p'.lastSend = some pass.env.now) ∧
      ((visit resendDelay addr pass id p).1.result = .ok () →
        batchOf id bufs = [] ∨
          ∃ lastSend, p.lastSend = some lastSend ∧ resendDelay ≤ elapsed pass.env.now lastSend) := by
  obtain ⟨bufs, hsent, hnow, hbufs, hcases⟩ :=
    PacketOut.sendPending_batches hp resendDelay addr pass.env
  cases hresult : pass.result with
  | error error =>
    have hvisit : visit resendDelay addr pass id p =
        ({ pass with
            batchSize := pass.batchSize + p.batchSize.val
            count := pass.count + 1
            result := .error error }, some p) := by
      simp only [visit, hresult]
    rw [hvisit]
    exact ⟨[], by simp, rfl, by simp, fun h => (by cases h), fun h => (by cases h),
      fun h => (by cases h)⟩
  | ok _ =>
    simp only [visit, hresult]
    rcases hsend : p.sendPending id resendDelay addr pass.env with ⟨result, p', env'⟩
    rw [hsend] at hsent hnow hcases
    cases result with
    | error error =>
      exact ⟨bufs, hsent, hnow, hbufs, fun _ => trivial, fun h => (by cases h), fun h => (by cases h)⟩
    | ok finished =>
      have hcases' : (batchOf id bufs = [] ∧ p'.lastSend = p.lastSend) ∨
          ∃ lastSend, p.lastSend = some lastSend ∧ resendDelay ≤ elapsed pass.env.now lastSend ∧
            p'.lastSend = some pass.env.now := by
        rcases hcases with hquiet | hbatch | ⟨error, herror⟩
        · exact Or.inl hquiet
        · exact Or.inr hbatch
        · cases herror
      refine ⟨bufs, hsent, hnow, hbufs, fun _ => trivial, fun _ q hq => ?_, fun _ => ?_⟩
      · dsimp only at hq
        split_ifs at hq
        cases hq
        exact hcases'
      · rcases hcases' with ⟨hnil, -⟩ | ⟨lastSend, hlast, hdue, -⟩
        · exact Or.inl hnil
        · exact Or.inr ⟨lastSend, hlast, hdue⟩

/-- **What a pass sends of one packet.**  Nothing, if the packet is not being sent; and parts of a packet
that is being sent only if it is time for its next batch. -/
theorem sendPending_batches (hb : b.AllParts) (resendDelay : ℕ) (addr : SocketAddr) (env : Env)
    (hok : (b.sendPending resendDelay addr env).1 = .ok ()) (id : PacketId) :
    ∃ batch : List Bytes,
      batchOf id ((b.sendPending resendDelay addr env).2.2.sent.map Prod.snd) =
        batchOf id (env.sent.map Prod.snd) ++ batch ∧
      (batch = [] ∨ ∃ p lastSend, b.packets.get? id = some p ∧ p.lastSend = some lastSend ∧
        resendDelay ≤ elapsed env.now lastSend) ∧
      ∀ p', (b.sendPending resendDelay addr env).2.1.packets.get? id = some p' →
        ∃ p, b.packets.get? id = some p ∧
          (batch = [] ∧ p'.lastSend = p.lastSend ∨ p'.lastSend = some env.now) := by
  set start : Pass := { batchSize := 0, count := 0, result := .ok (), env } with hstart
  have hother : ∀ k p, b.packets.get? k = some p → k ≠ id → ∀ pass,
      LeavesAlone id pass (visit resendDelay addr pass k p).1 := by
    intro k p hget hne pass
    obtain ⟨bufs, hsent, hnow, hbufs, hresult, -⟩ :=
      visit_batches (hb k p hget) resendDelay addr pass
    refine ⟨hnow, ?_, hresult⟩
    have hnil : batchOf id bufs = [] := by
      refine batchOf_eq_nil fun buf hbuf => ?_
      rcases hbufs buf hbuf with hnone | hsome
      · rw [hnone]
        simp
      · rw [hsome]
        simpa using hne
    rw [hsent, batchOf_append, hnil, List.append_nil]
  have hresult : (b.sendPending resendDelay addr env).1 =
      (b.packets.retainState (visit resendDelay addr) start).1.result := rfl
  rw [hresult] at hok
  have henv : (b.sendPending resendDelay addr env).2.2 =
      (b.packets.retainState (visit resendDelay addr) start).1.env := rfl
  have hpackets : (b.sendPending resendDelay addr env).2.1.packets =
      (b.packets.retainState (visit resendDelay addr) start).2 := rfl
  rw [henv, hpackets]
  cases hget : b.packets.get? id with
  | none =>
    have hall := SortedMap.retainState_state_of_entries (R := LeavesAlone id) (.refl id)
      (fun _ _ _ => .trans) (m := b.packets) (f := visit resendDelay addr)
      (fun k p hk => hother k p hk fun heq => by rw [heq, hget] at hk; cases hk) start
    refine ⟨[], ?_, Or.inl rfl, fun p' hp' => ?_⟩
    · rw [hall.batch, List.append_nil]
    · rw [SortedMap.get?_retainState_eq, hget] at hp'
      cases hp'
  | some p =>
    obtain ⟨pass, hbefore, hvisit, hafter⟩ := SortedMap.get?_retainState_of_others (R := LeavesAlone id)
      (.refl id) (fun _ _ _ => .trans) hother start hget
    obtain ⟨bufs, hsent, -, -, -, hkept, hbatch⟩ :=
      visit_batches (hb id p hget) resendDelay addr pass
    have hvisited := hafter.result hok
    have hnow : pass.env.now = env.now := hbefore.now
    refine ⟨batchOf id bufs, ?_, ?_, fun p' hp' => ⟨p, rfl, ?_⟩⟩
    · rw [hafter.batch, hsent, batchOf_append, hbefore.batch]
    · rcases hbatch hvisited with hnil | ⟨lastSend, hlast, hdue⟩
      · exact Or.inl hnil
      · exact Or.inr ⟨p, lastSend, rfl, hlast, hnow ▸ hdue⟩
    · rw [hvisit] at hp'
      rcases hkept hvisited p' hp' with hquiet | ⟨lastSend, hlast, hdue, hlast'⟩
      · exact Or.inl hquiet
      · exact Or.inr (hnow ▸ hlast')

end SendPacketBuffer

/-! ## A peer with a clock -/

namespace PeerInput

/-- The environment of a call. -/
def env : PeerInput → Env
  | .send _ _ env => env
  | .update _ _ _ env => env
  | .handle _ env => env

end PeerInput

/-- A peer, the time of its last call, and for each call so far its time and what was sent. -/
structure Clocked where
  peer : Peer
  clock : ℕ
  calls : List (ℕ × List Bytes)

namespace Clocked

variable {addr : SocketAddr} {c c' : Clocked} {resendDelay : ℕ} {batchSize : NonZeroBatchSize}

/-- A peer that was not called yet. -/
def init (batchSize : NonZeroBatchSize) : Clocked where
  peer := .init batchSize
  clock := 0
  calls := []

/-- One call. -/
def step (addr : SocketAddr) (c : Clocked) (input : PeerInput) : Option Clocked :=
  (c.peer.step addr input).map fun peer =>
    { peer
      clock := input.env.now
      calls := c.calls ++ [(input.env.now, peer.sent.drop c.peer.sent.length)] }

/-- The transition system of a peer with a clock. -/
def system (addr : SocketAddr) : Lts Clocked PeerInput where
  step := step addr

/-- The clock does not go back, ids are fresh, and updates wait at least for the resend delay and do
not fail: buffers whose update failed are not used again. -/
def Steady (addr : SocketAddr) (resendDelay : ℕ) (c : Clocked) (input : PeerInput) : Prop :=
  c.clock ≤ input.env.now ∧
    match input with
    | .send _ _ env => env.uuid 0 ∉ c.peer.log.map Prod.fst
    | .update delay maxMissedAcks receiveTimeout env =>
        resendDelay ≤ delay ∧
          (c.peer.buffers.update delay maxMissedAcks receiveTimeout addr env.start).1 = .ok ()
    | .handle _ _ => True

instance decidableSteady (addr : SocketAddr) (resendDelay : ℕ) (c : Clocked) :
    (input : PeerInput) → Decidable (Steady addr resendDelay c input)
  | .send _ _ env =>
      inferInstanceAs (Decidable (c.clock ≤ env.now ∧ env.uuid 0 ∉ c.peer.log.map Prod.fst))
  | .update delay maxMissedAcks receiveTimeout env =>
      inferInstanceAs (Decidable (c.clock ≤ env.now ∧ resendDelay ≤ delay ∧
        (c.peer.buffers.update delay maxMissedAcks receiveTimeout addr env.start).1 = .ok ()))
  | .handle _ env => inferInstanceAs (Decidable (c.clock ≤ env.now ∧ True))

/-- Batches are apart, and every packet that is being sent remembers its latest one. -/
structure Apart (resendDelay : ℕ) (c : Clocked) : Prop where
  past : ∀ call ∈ c.calls, call.1 ≤ c.clock
  logged : ∀ call ∈ c.calls, ∀ id, batchOf id call.2 ≠ [] → id ∈ c.peer.log.map Prod.fst
  apart : c.calls.Pairwise fun earlier later => ∀ id, batchOf id earlier.2 ≠ [] →
    batchOf id later.2 ≠ [] → earlier.1 + resendDelay ≤ later.1
  parts : c.peer.buffers.sendBuffer.AllParts
  known : ∀ id p, c.peer.buffers.sendBuffer.packets.get? id = some p → id ∈ c.peer.log.map Prod.fst
  latest : ∀ id p, c.peer.buffers.sendBuffer.packets.get? id = some p →
    ∀ lastSend, p.lastSend = some lastSend → lastSend ≤ c.clock ∧
      ∀ call ∈ c.calls, batchOf id call.2 ≠ [] → call.1 ≤ lastSend

theorem apart_init (batchSize : NonZeroBatchSize) : (init batchSize).Apart resendDelay where
  past := by simp [init]
  logged := by simp [init]
  apart := List.Pairwise.nil
  parts := by simp [init, Peer.init, PacketBuffers.new, SendPacketBuffer.new, SendPacketBuffer.AllParts]
  known := by simp [init, Peer.init, PacketBuffers.new, SendPacketBuffer.new]
  latest := by simp [init, Peer.init, PacketBuffers.new, SendPacketBuffer.new]

/-- **The step rule.**  A call keeps batches apart if whatever parts it sends are of new packets or due,
and the packets it leaves behind remember that. -/
theorem Apart.call (h : c.Apart resendDelay) {peer : Peer} {now : ℕ} {bufs : List Bytes}
    (hnow : c.clock ≤ now) (hlog : c.peer.log ⊆ peer.log)
    (hparts : peer.buffers.sendBuffer.AllParts)
    (hbatch : ∀ id, batchOf id bufs ≠ [] → id ∈ peer.log.map Prod.fst ∧
      (id ∉ c.peer.log.map Prod.fst ∨ ∃ p lastSend,
        c.peer.buffers.sendBuffer.packets.get? id = some p ∧ p.lastSend = some lastSend ∧
          lastSend + resendDelay ≤ now))
    (hpackets : ∀ id p', peer.buffers.sendBuffer.packets.get? id = some p' →
      id ∈ peer.log.map Prod.fst ∧ ∀ lastSend, p'.lastSend = some lastSend → lastSend = now ∨
        batchOf id bufs = [] ∧ ∃ p, c.peer.buffers.sendBuffer.packets.get? id = some p ∧
          p.lastSend = some lastSend) :
    Apart resendDelay { peer, clock := now, calls := c.calls ++ [(now, bufs)] } := by
  refine ⟨?_, ?_, ?_, hparts, fun id p' hget => (hpackets id p' hget).1, ?_⟩
  · intro call hcall
    rcases List.mem_append.mp hcall with hold | hnew
    · exact (h.past call hold).trans hnow
    · rw [List.mem_singleton.mp hnew]
  · intro call hcall id hid
    rcases List.mem_append.mp hcall with hold | hnew
    · exact List.map_subset _ hlog (h.logged call hold id hid)
    · rw [List.mem_singleton.mp hnew] at hid
      exact (hbatch id hid).1
  · refine List.pairwise_append.mpr ⟨h.apart, List.pairwise_singleton _ _, ?_⟩
    intro earlier hearlier later hlater id hid hid'
    rw [List.mem_singleton.mp hlater] at hid' ⊢
    rcases (hbatch id hid').2 with hfresh | ⟨p, lastSend, hget, hlast, hdue⟩
    · exact absurd (h.logged earlier hearlier id hid) hfresh
    · exact (Nat.add_le_add_right ((h.latest id p hget lastSend hlast).2 earlier hearlier hid) _).trans
        hdue
  · intro id p' hget lastSend hlast
    rcases (hpackets id p' hget).2 lastSend hlast with rfl | ⟨hnil, p, hget', hlast'⟩
    · refine ⟨le_rfl, fun call hcall _ => ?_⟩
      rcases List.mem_append.mp hcall with hold | hnew
      · exact (h.past call hold).trans hnow
      · rw [List.mem_singleton.mp hnew]
    · obtain ⟨hle, hbefore⟩ := h.latest id p hget' lastSend hlast'
      refine ⟨hle.trans hnow, fun call hcall hid => ?_⟩
      rcases List.mem_append.mp hcall with hold | hnew
      · exact hbefore call hold hid
      · rw [List.mem_singleton.mp hnew] at hid
        exact absurd hnil hid

/-- A packet is sent. -/
theorem Apart.send (h : c.Apart resendDelay) {threshold : ℕ} {value : List Bytes} {env : Env}
    (hsteady : Steady addr resendDelay c (.send threshold value env))
    (hstep : step addr c (.send threshold value env) = some c') : c'.Apart resendDelay := by
  obtain ⟨hnow, hfresh⟩ := hsteady
  simp only [step, Peer.step] at hstep
  cases hsend : c.peer.buffers.send value threshold addr env.start with
  | error abort => simp [hsend] at hstep
  | ok sent =>
    obtain ⟨result, buffers, env'⟩ := sent
    simp only [hsend, Option.map_some, Option.some.injEq, List.drop_left] at hstep
    subst hstep
    obtain ⟨serialized, hserialize, hcases⟩ := PacketBuffers.send_cases hsend
    have hid : env.start.newUuid.1 = env.uuid 0 := rfl
    rw [hid] at hserialize
    have hmem : env.uuid 0 ∈ (c.peer.log ++ [(env.uuid 0, value.flatten)]).map Prod.fst := by simp
    -- only parts of the new packet are sent
    have hbatches : ∃ outcome, PacketOut.send serialized addr c.peer.buffers.sendBuffer.batchSize
        env.start.newUuid.2 = (outcome, env') := by
      rcases hcases with ⟨error, hout, -⟩ | ⟨packet, hout, -⟩
      · exact ⟨_, hout⟩
      · exact ⟨_, hout⟩
    obtain ⟨outcome, hout⟩ := hbatches
    obtain ⟨bufs, hsent, hbufs, hpacket⟩ := PacketOut.send_batches hserialize hout
    have hsent' : env'.sent.map Prod.snd = bufs := hsent
    rw [hsent']
    refine h.call hnow (List.subset_append_left _ _) ?_ ?_ ?_
    · rcases hcases with ⟨error, -, -, rfl⟩ | ⟨packet, hout', -, rfl⟩
      · exact h.parts
      · rw [hout'] at hout
        cases hout
        intro id p hget
        simp only [SortedMap.get?_insert] at hget
        split_ifs at hget with heq
        · cases hget
          rw [heq, hid]
          exact (hpacket packet rfl).1
        · exact h.parts id p hget
    · intro id hne
      have heq : id = env.uuid 0 := by
        by_contra hother
        refine hne (batchOf_eq_nil fun buf hbuf => ?_)
        rw [hbufs buf hbuf]
        simpa using Ne.symm hother
      subst heq
      exact ⟨hmem, Or.inl hfresh⟩
    · rcases hcases with ⟨error, -, -, rfl⟩ | ⟨packet, hout', -, rfl⟩
      · intro id p' hget
        have hknown := h.known id p' hget
        refine ⟨List.map_subset _ (List.subset_append_left _ _) hknown, fun lastSend hlast =>
          Or.inr ⟨batchOf_eq_nil fun buf hbuf => ?_, p', hget, hlast⟩⟩
        rw [hbufs buf hbuf]
        intro heq
        rw [← Option.some.inj heq] at hknown
        exact hfresh hknown
      · rw [hout'] at hout
        cases hout
        intro id p' hget
        simp only [SortedMap.get?_insert] at hget
        split_ifs at hget with heq
        · cases hget
          rw [heq, hid]
          exact ⟨hmem, fun lastSend hlast => Or.inl ((hpacket packet rfl).2 lastSend hlast)⟩
        · refine ⟨List.map_subset _ (List.subset_append_left _ _) (h.known id p' hget),
            fun lastSend hlast => Or.inr ⟨batchOf_eq_nil fun buf hbuf => ?_, p', hget, hlast⟩⟩
          rw [hbufs buf hbuf]
          rw [hid] at heq
          simpa using Ne.symm heq

/-- Pending parts are sent. -/
theorem Apart.update (h : c.Apart resendDelay) {delay : ℕ} {maxMissedAcks receiveTimeout : Option ℕ}
    {env : Env} (hsteady : Steady addr resendDelay c (.update delay maxMissedAcks receiveTimeout env))
    (hstep : step addr c (.update delay maxMissedAcks receiveTimeout env) = some c') :
    c'.Apart resendDelay := by
  obtain ⟨hnow, hdelay, hok⟩ := hsteady
  set b := c.peer.buffers.timeoutPackets maxMissedAcks receiveTimeout env.start with hb
  have hkept : ∀ id p, b.sendBuffer.packets.get? id = some p →
      c.peer.buffers.sendBuffer.packets.get? id = some p := by
    intro id p hget
    rw [hb, PacketBuffers.get?_timeoutPackets, Option.filter_eq_some_iff] at hget
    exact hget.1
  have hparts : b.sendBuffer.AllParts := fun id p hget => h.parts id p (hkept id p hget)
  have hbatches := SendPacketBuffer.sendPending_batches hparts delay addr env.start hok
  simp only [step, Peer.step, PacketBuffers.update, ← hb, Option.map_some, List.drop_left,
    Option.some.injEq] at hstep
  subst hstep
  have hafter : (b.sendBuffer.sendPending delay addr env.start).2.1.AllParts := by
    have hpass := SortedMap.retainState_invariant (f := SendPacketBuffer.visit delay addr)
      (I := fun _ m => ∀ id p, m.get? id = some p → p.packetQueue.AllParts id)
      (s := { batchSize := 0, count := 0, result := .ok (), env := env.start })
      (m := b.sendBuffer.packets) ?_ hparts
    · exact hpass
    · intro pass m id p hm hget k q hq
      have hsame := (p.sendPending_parts id delay addr pass.env).1
      rw [SortedMap.get?_update] at hq
      split_ifs at hq with hk
      · subst hk
        have hvisited : q.packetQueue.parts = p.packetQueue.parts := by
          unfold SendPacketBuffer.visit at hq
          dsimp only at hq
          split at hq
          · cases hq
            rfl
          · split at hq <;> rename_i heq <;> rw [heq] at hsame
            · dsimp only at hq
              split_ifs at hq
              cases hq
              exact hsame
            · cases hq
              exact hsame
        intro buf hbuf
        rw [hvisited] at hbuf
        exact hm k p hget buf hbuf
      · exact hm k q hq
  refine h.call hnow (List.Subset.refl _) hafter ?_ ?_
  · intro id hne
    obtain ⟨batch, hbatch, hdue, -⟩ := hbatches id
    rw [Env.start_sent, List.map_nil, batchOf_nil, List.nil_append] at hbatch
    rcases hdue with hnil | ⟨p, lastSend, hget, hlast, hdue⟩
    · exact absurd (hbatch.trans hnil) hne
    · have hold := hkept id p hget
      refine ⟨h.known id p hold, Or.inr ⟨p, lastSend, hold, hlast, ?_⟩⟩
      have hle := (h.latest id p hold lastSend hlast).1
      rw [Env.start_now, elapsed] at hdue
      have hnow' : c.clock ≤ env.now := hnow
      change lastSend + resendDelay ≤ env.now
      omega
  · intro id p' hget
    obtain ⟨batch, hbatch, -, hpackets⟩ := hbatches id
    rw [Env.start_sent, List.map_nil, batchOf_nil, List.nil_append] at hbatch
    obtain ⟨p, hget', hcases⟩ := hpackets p' hget
    have hold := hkept id p hget'
    refine ⟨h.known id p hold, fun lastSend hlast => ?_⟩
    rcases hcases with ⟨hnil, hsame⟩ | hsent
    · exact Or.inr ⟨hbatch.trans hnil, p, hold, hsame.symm.trans hlast⟩
    · rw [hsent] at hlast
      exact Or.inl (Option.some.inj hlast).symm

/-- A datagram arrives. -/
theorem Apart.handle (h : c.Apart resendDelay) {buf : Bytes} {env : Env}
    (hnow : c.clock ≤ env.now) (hstep : step addr c (.handle buf env) = some c') :
    c'.Apart resendDelay := by
  simp only [step, Peer.step] at hstep
  cases hhandle : c.peer.buffers.handle buf addr env.start with
  | error abort => simp [hhandle] at hstep
  | ok handled =>
    obtain ⟨result, b', env'⟩ := handled
    simp only [hhandle, Option.map_some, Option.some.injEq, List.drop_left] at hstep
    subst hstep
    obtain ⟨received, -, hsend, -⟩ := PacketBuffers.handle_halves hhandle
    obtain ⟨acks, hsent, hacks⟩ := PacketBuffers.handle_sent hhandle
    have hnil : ∀ id, batchOf id (env'.sent.map Prod.snd) = [] := by
      intro id
      refine batchOf_eq_nil fun buf' hbuf' => ?_
      rw [hsent, Env.start_sent, List.nil_append, List.map_map] at hbuf'
      obtain ⟨ack, hack, rfl⟩ := List.mem_map.mp hbuf'
      obtain ⟨id', k, rfl⟩ := hacks ack hack
      simp
    -- what is known of a packet afterwards
    have hpackets : ∀ id p', b'.sendBuffer.packets.get? id = some p' →
        ∃ p, c.peer.buffers.sendBuffer.packets.get? id = some p ∧ p'.lastSend = p.lastSend ∧
          (p.packetQueue.AllParts id → p'.packetQueue.AllParts id) := by
      intro id p' hget
      rw [hsend] at hget
      rcases c.peer.buffers.sendBuffer.handle_cases buf with hsame | ⟨id', seqIndex, hack⟩
      · rw [hsame] at hget
        exact ⟨p', hget, rfl, fun hp => hp⟩
      · rw [hack, SendPacketBuffer.get?_ack] at hget
        split_ifs at hget with hid
        · obtain ⟨p, hp, rfl⟩ := Option.map_eq_some_iff.mp hget
          exact ⟨p, hid ▸ hp, p.ack_lastSend seqIndex, fun hp => PacketOut.allParts_ack hp seqIndex⟩
        · exact ⟨p', hget, rfl, fun hp => hp⟩
    refine h.call hnow (List.Subset.refl _) ?_ ?_ ?_
    · intro id p' hget
      obtain ⟨p, hp, -, hparts⟩ := hpackets id p' hget
      exact hparts (h.parts id p hp)
    · intro id hne
      exact absurd (hnil id) hne
    · intro id p' hget
      obtain ⟨p, hp, hlast, -⟩ := hpackets id p' hget
      exact ⟨h.known id p hp, fun lastSend hsome =>
        Or.inr ⟨hnil id, p, hp, hlast.symm.trans hsome⟩⟩

/-- A packet is sent and lost.  The first update comes too early, the second one sends it again, and
then it is acked. -/
def resendLater : List PeerInput :=
  [.send 4 [[1], [2]] (.accepting 3), .update 5 none none (.accepting 6),
    .update 5 none none (.accepting 8), .handle (ackDatagram (.replicate 7) 0) (.accepting 9)]

/-- **Batches are apart.**  In every run of a peer, whatever arrives at it and however often it is
updated: two calls that both send parts of one packet are at least the resend delay apart. -/
theorem batches_apart
    (hrun : (system addr).GuardedRun (Steady addr resendDelay) (init batchSize) c) :
    c.calls.Pairwise fun earlier later => ∀ id, batchOf id earlier.2 ≠ [] →
      batchOf id later.2 ≠ [] → earlier.1 + resendDelay ≤ later.1 := by
  have hinv : c.Apart resendDelay := by
    refine hrun.invariant (fun c input c' hc hsteady hstep => ?_) (apart_init batchSize)
    cases input with
    | send threshold value env => exact hc.send hsteady hstep
    | update delay maxMissedAcks receiveTimeout env => exact hc.update hsteady hstep
    | handle buf env => exact hc.handle hsteady.1 hstep
  exact hinv.apart

theorem batches_apart_twice :
    ∃ c, (system 1).GuardedRun (Steady 1 5) (init ⟨8, by decide⟩) c ∧
      (c.calls.map fun call => (call.1, (batchOf (.replicate 7) call.2).length)) =
        [(3, 1), (6, 0), (8, 1), (9, 0)] ∧
      c.calls.Pairwise fun earlier later => ∀ id, batchOf id earlier.2 ≠ [] →
        batchOf id later.2 ≠ [] → earlier.1 + 5 ≤ later.1 := by
  obtain ⟨c, hrun, hc⟩ := Lts.exists_guardedRun (system 1) (Steady 1 5)
    (fun c input => decide (Steady 1 5 c input)) (init ⟨8, by decide⟩) resendLater
    (fun c => (c.calls.map fun call => (call.1, (batchOf (.replicate 7) call.2).length)) =
      [(3, 1), (6, 0), (8, 1), (9, 0)])
    (fun _ _ _ => of_decide_eq_true) (by decide +kernel)
  exact ⟨c, hrun, of_decide_eq_true hc, batches_apart hrun⟩

end Clocked

end Ultinet
