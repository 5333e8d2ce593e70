import Ultinet.Packet.OutRun

/-!
# A socket that would block

A packet counts as canceled if it has no time of a last batch.  The only place where that time may be
missing is the first batch: if the socket would block for any part of it, then the next call of
`sendPending` sends a `Done` although parts are left (`PacketOut.never_canceled_iff`).
-/

namespace Ultinet

namespace PacketQueue

/-- The buffers are parts of a packet, marked or not. -/
def AllParts (id : PacketId) (q : PacketQueue) : Prop :=
  ∀ b ∈ q.parts, ∃ last k payload, b.deref = partDatagram last id k payload

/-- An ack leaves no datagrams behind that were not there. -/
theorem AllParts.ack {id : PacketId} {q : PacketQueue} (h : q.AllParts id) (seqIndex : ℕ) :
    (q.ack seqIndex).2.AllParts id := by
  unfold PacketQueue.ack
  split
  · exact h
  · rename_i packet hget
    split_ifs
    · exact h
    · intro b hb
      rcases List.mem_append.mp hb with hb | hb
      · have hset : b ∈ q.packets.set seqIndex { packet with acked := true } :=
          List.mem_of_mem_drop hb
        rcases List.mem_or_eq_of_mem_set hset with hb | rfl
        · exact h b (List.mem_append_left _ hb)
        · exact h packet (List.mem_append_left _ (List.mem_of_getElem? hget))
      · exact h b (List.mem_append_right _ hb)

/-- All buffers of a new queue. -/
theorem parts_new (serialized : SerializedPacket) : (new serialized).parts = serialized.buffers := by
  cases serialized with
  | vec packets => exact List.append_nil _
  | channel rx => rfl

end PacketQueue

namespace PacketOut

open PacketQueue

variable {id : PacketId} {addr : SocketAddr} {env env' : Env} {p q : PacketOut}

/-- The packet is not canceled, and its buffers are parts. -/
structure Alive (id : PacketId) (p : PacketOut) : Prop where
  sending : p.lastSend ≠ none
  unmarked : p.packetQueue.Unmarked
  parts : p.packetQueue.AllParts id

/-- No call cancels a packet. -/
theorem Alive.step (h : p.Alive id) (op : Op) : (PacketOut.step id addr p op).Alive id := by
  cases op with
  | ack seqIndex =>
    have hqueue := h.parts.ack seqIndex
    refine ⟨?_, unmarked_ack h.unmarked seqIndex, ?_⟩
    · unfold PacketOut.step ack
      dsimp only
      split <;> exact h.sending
    · unfold PacketOut.step ack
      dsimp only
      split <;> rename_i heq <;> rw [heq] at hqueue <;> exact hqueue
  | sendPending resendDelay env =>
    obtain ⟨hparts, hlast⟩ := p.sendPending_parts id resendDelay addr env
    refine ⟨hlast.not.mpr h.sending, unmarked_sendPending h.unmarked id resendDelay addr env, ?_⟩
    intro b hb
    have hmem : b ∈ (p.sendPending id resendDelay addr env).2.1.packetQueue.parts := hb
    rw [hparts] at hmem
    exact h.parts b hmem

/-- A call of `sendPending` sends a `Done`, or its result is that the packet can be discarded. -/
def Finishes (p : PacketOut) (id : PacketId) (resendDelay : ℕ) (addr : SocketAddr) (env : Env) :
    Prop :=
  (p.sendPending id resendDelay addr env).1 = .ok true ∨
    (addr, doneDatagram id) ∈
      (p.sendPending id resendDelay addr env).2.2.sent.drop env.sent.length

/-- A packet that is not canceled finishes only if no unacked part is left. -/
theorem Alive.pending_eq_nil (h : p.Alive id) {resendDelay : ℕ} (hno : env.NoError)
    (hfinishes : p.Finishes id resendDelay addr env) : pending p.packetQueue.parts = [] := by
  obtain ⟨n, sent, hsend, hnil, -, hsent, -⟩ :=
    (sends_as_loaded h.unmarked).2 p.balanced addr env hno
  have hbatch : (p.nextBatch addr env).1 = .ok (n, sent) := hsend
  have houtcome := p.sendPending_outcome id resendDelay addr env
  unfold Finishes at hfinishes
  generalize (p.sendPending id resendDelay addr env).1 = result at houtcome hfinishes
  generalize (p.sendPending id resendDelay addr env).2.1 = p' at houtcome
  generalize (p.sendPending id resendDelay addr env).2.2 = env' at houtcome hfinishes
  cases houtcome with
  | canceled hlast => exact absurd hlast h.sending
  | early => simp at hfinishes
  | failed _ _ _ error herror =>
    rw [hbatch] at herror
    cases herror
  | finished _ _ _ hzero =>
    rw [hbatch] at hzero
    cases hzero
    exact hnil.mp ⟨rfl, rfl⟩
  | resent =>
    -- what was sent are parts, which are no `Done`
    rcases hfinishes with hdone | hdone
    · cases hdone
    · replace hsent : (p.nextBatch addr env).2.2.sent = _ := hsent
      rw [hsent, List.drop_left] at hdone
      obtain ⟨b, hb, heq⟩ := List.mem_map.mp hdone
      have hmem : b ∈ p.packetQueue.parts :=
        List.mem_of_mem_filter (List.mem_of_mem_take hb)
      obtain ⟨last, k, payload, hderef⟩ := h.parts b hmem
      rw [hderef, Prod.mk.injEq] at heq
      have hdone : doneDatagram id ++ [] = partDatagram last id k payload := by
        rw [List.append_nil, heq.2]
      exact absurd hdone doneDatagram_append_ne_partDatagram

/-! ## The first batch -/

/-- The socket accepts the whole first batch. -/
def FirstBatchAccepted (serialized : SerializedPacket) (batchSize : NonZeroBatchSize)
    (addr : SocketAddr) (env : Env) : Prop :=
  ∀ j buf, ((serialized.buffers.map PacketBuffer.deref).take batchSize.val)[j]? = some buf →
    env.answer (env.attempts ++
      (((serialized.buffers.map PacketBuffer.deref).take batchSize.val).take j).map (Prod.mk addr))
      (addr, buf) = .sent

/-- A new packet counts as canceled exactly if the socket would block during the first batch; then a
part is left. -/
theorem send_lastSend {serialized : SerializedPacket} {batchSize : NonZeroBatchSize}
    (hbuilt : AllBuilt id serialized.buffers) (hno : env.NoError)
    (h : send serialized addr batchSize env = (.ok p, env')) :
    p.packetQueue.parts = serialized.buffers ∧ p.packetQueue.Unmarked ∧
      (p.lastSend ≠ none ↔ FirstBatchAccepted serialized batchSize addr env) ∧
      (p.lastSend = none → serialized.buffers ≠ []) := by
  have hunmarked : (PacketQueue.new serialized).Unmarked :=
    unmarked_new fun rx hrx b hb => hbuilt.not_acked (by rw [hrx]; exact hb)
  have hpending : pending serialized.buffers = serialized.buffers :=
    List.filter_eq_self.mpr fun b hb => by simp [hbuilt.not_acked hb]
  have hbufs : ((PacketQueue.new serialized).unacked batchSize.val).1 =
      (serialized.buffers.map PacketBuffer.deref).take batchSize.val := by
    rw [unacked_eq_loaded hunmarked, loaded_unacked, parts_new, hpending]
  obtain ⟨k, hk, attempts, hsend, hcut⟩ := sendBuffers_cut hno addr 0
    ((PacketQueue.new serialized).unacked batchSize.val).1
  rw [hbufs] at hk hsend hcut
  have hparts : ((PacketQueue.new serialized).pull batchSize.val).parts = serialized.buffers :=
    (congrArg PacketQueue.packets
      ((PacketQueue.new serialized).loaded_pull batchSize.val)).trans (parts_new serialized)
  unfold send sendUnacked at h
  simp only [hbufs, hsend] at h
  cases h
  refine ⟨hparts, hunmarked.pull _, ?_, fun hnone hempty => ?_⟩
  · constructor
    · intro hlast j buf hget
      have hall : k = ((serialized.buffers.map PacketBuffer.deref).take batchSize.val).length := by
        by_contra hne
        simp only [decide_eq_true_eq, if_neg hne] at hlast
        exact hlast rfl
      have hlt := (List.getElem?_eq_some_iff.mp hget).1
      have hanswer := hcut j buf hget (by omega)
      rw [if_pos (by omega)] at hanswer
      exact hanswer
    · intro haccepted hnone
      have hlt : k < ((serialized.buffers.map PacketBuffer.deref).take batchSize.val).length := by
        refine lt_of_le_of_ne hk fun heq => ?_
        simp [heq] at hnone
      have hget := List.getElem?_eq_getElem hlt
      have hanswer := hcut k _ hget le_rfl
      rw [haccepted k _ hget, if_neg (lt_irrefl k)] at hanswer
      cases hanswer
  · simp [hempty] at hk hnone
    exact hnone hk

/-- **A blocked socket never cancels a packet** exactly if it does not block during the first batch.
Otherwise the next call of `sendPending` sends a `Done` although a part is left. -/
theorem never_canceled_iff {threshold : ℕ} {value : List Bytes} {serialized : SerializedPacket}
    {batchSize : NonZeroBatchSize} (hserialize : serializePacket id threshold value = .ok serialized)
    (hno : env.NoError) (hsend : send serialized addr batchSize env = (.ok p, env')) :
    (∀ q, (system id addr).GuardedRun (fun _ op => op.NoError) p q →
      ∀ (resendDelay : ℕ) (env : Env), env.NoError → q.Finishes id resendDelay addr env →
        pending q.packetQueue.parts = []) ↔
      FirstBatchAccepted serialized batchSize addr env := by
  have hbuilt := serializePacket_built hserialize
  obtain ⟨hparts, hunmarked, haccepted, hleft⟩ := send_lastSend hbuilt hno hsend
  rw [← haccepted]
  constructor
  · intro hfinishes hnone
    have hdone : p.Finishes id 0 addr (.accepting 0) := by
      refine Or.inl ?_
      simp only [sendPending, hnone]
      rfl
    have hnil := hfinishes p Relation.ReflTransGen.refl 0 (.accepting 0)
      (Env.accepting_noError 0 7) hdone
    rw [hparts] at hnil
    have hpending : pending serialized.buffers = serialized.buffers :=
      List.filter_eq_self.mpr fun b hb => by simp [hbuilt.not_acked hb]
    exact hleft hnone (hpending.symm.trans hnil)
  · intro hlast q hrun resendDelay env hno hfinishes
    have halive : p.Alive id := by
      refine ⟨hlast, hunmarked, fun b hb => ?_⟩
      rw [hparts] at hb
      obtain ⟨last, k, hb'⟩ := hbuilt b hb
      exact ⟨last, k, b.payload, hb'.hasHeader.deref⟩
    have hq : q.Alive id := by
      refine hrun.invariant (I := fun p : PacketOut => p.Alive id) (fun s op t hs _ hstep => ?_) halive
      cases hstep
      exact hs.step op
    exact hq.pending_eq_nil hno hfinishes

/-- A packet that is sent on a socket that never blocks. -/
theorem never_canceled_accepting :
    ∃ serialized p env', serializePacket (.replicate 7) 4 [[1, 2]] = .ok serialized ∧
      send serialized 2 ⟨8, by decide⟩ (.accepting 0) = (.ok p, env') ∧
      ∀ q, (system (.replicate 7) 2).GuardedRun (fun _ op => op.NoError) p q →
        ∀ (resendDelay : ℕ) (env : Env), env.NoError → q.Finishes (.replicate 7) resendDelay 2 env →
          pending q.packetQueue.parts = [] := by
  have hno : (Env.accepting 0).NoError := Env.accepting_noError 0 7
  have hserialize : serializePacket (.replicate 7) 4 [[1, 2]] =
      .ok (.vec (chunkBuffers (.replicate 7) [1, 2])) :=
    serializePacket_eq (by decide)
  obtain ⟨result, attempts, bufs, hsend, -, ⟨error, -, hfail⟩ | ⟨p, rfl, -⟩⟩ :=
    send_spec (Or.inl rfl) 2 ⟨8, by decide⟩ (.accepting 0)
  · exact absurd hno hfail
  · exact ⟨_, p, _, hserialize, hsend,
      (never_canceled_iff hserialize hno hsend).mpr fun _ _ _ => rfl⟩

/-- **A packet that is lost on a busy socket.**  The socket would block when the packet is sent; then
the next update sends a `Done`, though the only part was never sent. -/
theorem canceled_by_block :
    ∃ serialized p env', serializePacket (.replicate 7) 4 [[1, 2]] = .ok serialized ∧
      send serialized 2 ⟨8, by decide⟩ (.blocked 0) = (.ok p, env') ∧
      p.Finishes (.replicate 7) 1000 2 (.accepting 1) ∧ pending p.packetQueue.parts ≠ [] := by
  have hno : (Env.blocked 0).NoError := Env.blocked_noError 0
  have hserialize : serializePacket (.replicate 7) 4 [[1, 2]] =
      .ok (.vec (chunkBuffers (.replicate 7) [1, 2])) :=
    serializePacket_eq (by decide)
  obtain ⟨result, attempts, bufs, hsend, -, ⟨error, -, hfail⟩ | ⟨p, rfl, -⟩⟩ :=
    send_spec (Or.inl rfl) 2 ⟨8, by decide⟩ (.blocked 0)
  · exact absurd hno hfail
  · obtain ⟨hparts, -, haccepted, -⟩ := send_lastSend (serializePacket_built hserialize) hno hsend
    have hlast : p.lastSend = none := by
      by_contra hlast
      have hanswer := haccepted.mp hlast 0 (chunkBuffer (.replicate 7) [1, 2] 0).deref rfl
      cases hanswer
    refine ⟨_, p, _, hserialize, hsend, Or.inl ?_, ?_⟩
    · simp only [sendPending, hlast]
      rfl
    · rw [hparts]
      exact List.cons_ne_nil _ _

end PacketOut

end Ultinet
