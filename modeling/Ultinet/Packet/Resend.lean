import Ultinet.Packet.Serialized

/-!
# Resending

A packet that is being sent is *serviced* by an update if some of its parts that are not acked are
sent again, or a `Done` is sent because all are acked, or the packet is dropped because it missed too
many acks (`Serviced`).  With a socket that accepts everything, an update of the buffers services
every packet that is due (`PacketBuffers.update_serviced`).

This needs that the buffers that were not pulled from the channel yet are not marked as acked.  The
serializers never mark a buffer, and only buffers that were pulled are marked later (`Unmarked`).
-/

namespace Ultinet

/-! ## Serializers do not mark buffers -/

/-- No buffer is marked as acked. -/
def NoneAcked (bufs : List PacketBuffer) : Prop :=
  ∀ b ∈ bufs, b.acked = false

/-- There is nothing to mark. -/
theorem NoneAcked.nil : NoneAcked [] := by
  intro b hb
  cases hb

/-- Some of the buffers are not marked either. -/
theorem NoneAcked.of_subset {bufs bufs' : List PacketBuffer} (h : NoneAcked bufs)
    (hsub : bufs' ⊆ bufs) : NoneAcked bufs' :=
  fun b hb => h b (hsub hb)

/-- The buffers that come through the channel are not marked. -/
theorem serializePacket_noneAcked {id : PacketId} {threshold : ℕ} {value : List Bytes}
    {rx : List PacketBuffer} (h : serializePacket id threshold value = .ok (.channel rx)) :
    NoneAcked rx :=
  fun _ hb => (serializePacket_built h).not_acked hb

/-! ## Only buffers that were pulled are marked -/

namespace PacketQueue

/-- The parts that were not dropped from the front. -/
def parts (q : PacketQueue) : List PacketBuffer :=
  q.packets ++ q.rx.getD []

/-- The buffers in the channel are not marked. -/
def Unmarked (q : PacketQueue) : Prop :=
  NoneAcked (q.rx.getD [])

/-- Pulling takes buffers out of the channel. -/
theorem Unmarked.pull {q : PacketQueue} (h : q.Unmarked) (count : ℕ) : (q.pull count).Unmarked := by
  unfold PacketQueue.pull
  split
  · exact h
  · rename_i rx hrx
    unfold Unmarked at h ⊢
    rw [hrx] at h
    exact h.of_subset (List.drop_subset _ _)

/-- An ack marks a buffer that was pulled. -/
theorem Unmarked.ack {q : PacketQueue} (h : q.Unmarked) (seqIndex : ℕ) :
    (q.ack seqIndex).2.Unmarked := by
  unfold PacketQueue.ack
  split
  · exact h
  · split_ifs
    · exact h
    · exact h

/-- In a new queue nothing is marked. -/
theorem unmarked_new {serialized : SerializedPacket}
    (h : ∀ rx, serialized = .channel rx → NoneAcked rx) : (new serialized).Unmarked := by
  cases serialized with
  | vec packets => exact .nil
  | channel rx => exact h rx rfl

/-- What is sent next are parts that are not acked. -/
theorem mem_unacked {q : PacketQueue} {count : ℕ} {buf : Bytes} (h : buf ∈ (q.unacked count).1) :
    ∃ b ∈ q.parts, b.acked = false ∧ b.deref = buf := by
  obtain ⟨b, hb, hderef⟩ := List.mem_map.mp (List.mem_of_mem_take h)
  obtain ⟨hmem, hmark⟩ := List.mem_filter.mp hb
  refine ⟨b, ?_, by simpa using hmark, hderef⟩
  unfold PacketQueue.pull at hmem
  unfold parts
  split at hmem
  · exact List.mem_append_left _ hmem
  · rename_i rx hrx
    rw [hrx]
    rcases List.mem_append.mp hmem with hmem | hmem
    · exact List.mem_append_left _ hmem
    · exact List.mem_append_right _ (List.mem_of_mem_take hmem)

end PacketQueue

namespace PacketOut

variable {p : PacketOut} {id : PacketId} {addr : SocketAddr} {env : Env}

/-- Nor in the queue of a packet that was just sent. -/
theorem unmarked_send {serialized : SerializedPacket} {batchSize : NonZeroBatchSize} {env' : Env}
    (h : ∀ rx, serialized = .channel rx → NoneAcked rx)
    (hsend : send serialized addr batchSize env = (.ok p, env')) : p.packetQueue.Unmarked := by
  unfold send PacketQueue.sendUnacked at hsend
  dsimp only at hsend
  split at hsend <;> rename_i heq <;> simp only [Prod.mk.injEq] at heq
  · cases hsend
  · cases hsend
    rw [← heq.2.1]
    exact (PacketQueue.unmarked_new h).pull _

/-- An ack leaves the channel as it is. -/
theorem unmarked_ack (h : p.packetQueue.Unmarked) (seqIndex : ℕ) :
    (p.ack seqIndex).2.packetQueue.Unmarked := by
  have hqueue := h.ack seqIndex
  unfold ack
  dsimp only
  split <;> rename_i heq <;> rw [heq] at hqueue <;> exact hqueue

/-- Sending the pending parts only pulls. -/
theorem unmarked_sendPending (h : p.packetQueue.Unmarked) (id : PacketId) (resendDelay : ℕ)
    (addr : SocketAddr) (env : Env) :
    (p.sendPending id resendDelay addr env).2.1.packetQueue.Unmarked := by
  unfold sendPending
  split
  · exact h
  · split_ifs
    · exact h
    · dsimp only [PacketQueue.sendUnacked]
      split <;> rename_i heq <;> simp only [Prod.mk.injEq] at heq <;> dsimp only <;>
        rw [← heq.2.1] <;> exact h.pull _

/-! ## Servicing a packet -/

/-- An update services a packet: parts of it that are not acked are sent again, or all are acked, a
`Done` is sent and the packet is dropped, or it is dropped because it missed too many acks. -/
inductive Serviced (p : PacketOut) (id : PacketId) (maxMissedAcks : Option ℕ) (addr : SocketAddr)
    (sent : List (SocketAddr × Bytes)) (after : Option PacketOut) : Prop
  | resent (batch : List Bytes) (hne : batch ≠ [])
      (hparts : ∀ buf ∈ batch, ∃ b ∈ p.packetQueue.parts, b.acked = false ∧ b.deref = buf)
      (hsent : ∀ buf ∈ batch, (addr, buf) ∈ sent)
  | done (hacked : ∀ b ∈ p.packetQueue.parts, b.acked = true)
      (hsent : (addr, doneDatagram id) ∈ sent) (hdropped : after = none)
  | exceeded (m : ℕ) (hm : maxMissedAcks = some m) (hmissed : m < p.missedAcks)
      (hdropped : after = none)

/-- A packet that was serviced stays serviced when more is sent. -/
theorem Serviced.mono {maxMissedAcks : Option ℕ} {sent sent' : List (SocketAddr × Bytes)}
    {after after' : Option PacketOut} (h : p.Serviced id maxMissedAcks addr sent after)
    (hsub : sent ⊆ sent') (hafter : after = none → after' = none) :
    p.Serviced id maxMissedAcks addr sent' after' := by
  cases h with
  | resent batch hne hparts hsent =>
    exact .resent batch hne hparts fun buf hbuf => hsub (hsent buf hbuf)
  | done hacked hsent hdropped => exact .done hacked (hsub hsent) (hafter hdropped)
  | exceeded m hm hmissed hdropped => exact .exceeded m hm hmissed (hafter hdropped)

/-- The packet was last sent long enough ago. -/
def Due (p : PacketOut) (resendDelay now : ℕ) : Prop :=
  ∃ lastSend, p.lastSend = some lastSend ∧ resendDelay ≤ elapsed now lastSend

/-- With a socket that accepts everything, sending the pending parts services a packet that is due. -/
theorem sendPending_perfect (id : PacketId) (addr : SocketAddr)
    (hunmarked : p.packetQueue.Unmarked) {resendDelay : ℕ}
    (hdue : p.Due resendDelay env.now) (hperfect : env.Perfect) :
    ∃ p' batch, (batch ≠ [] ∧
        (∀ buf ∈ batch, ∃ b ∈ p.packetQueue.parts, b.acked = false ∧ b.deref = buf) ∧
        p.sendPending id resendDelay addr env =
          (.ok false, p', env.record (batch.map (Prod.mk addr)) (batch.map (Prod.mk addr)))) ∨
      ((∀ b ∈ p.packetQueue.parts, b.acked = true) ∧ p.sendPending id resendDelay addr env =
        (.ok true, p', env.record [(addr, doneDatagram id)] [(addr, doneDatagram id)])) := by
  obtain ⟨lastSend, hlast, hdelay⟩ := hdue
  set batchSize := balanceBatchSize p.batchSize p.lastBatchAcks p.lastBatchSize with hbatch
  have hsent : ∀ k < (p.packetQueue.unacked batchSize.val).1.length,
      ∀ buf, (p.packetQueue.unacked batchSize.val).1[k]? = some buf →
        env.answer (env.attempts ++ ((p.packetQueue.unacked batchSize.val).1.take k).map
          (Prod.mk addr)) (addr, buf) = .sent := fun k _ buf _ => hperfect _ _
  have hall := PacketQueue.sendBuffers_of_sent 0 hsent
  rw [Nat.zero_add] at hall
  cases hbufs : (p.packetQueue.unacked batchSize.val).1 with
  | nil =>
    obtain ⟨hrx, hmarked⟩ := PacketQueue.unacked_eq_nil hunmarked batchSize.property.1 hbufs
    refine ⟨{ p with batchSize, packetQueue := (p.packetQueue.unacked batchSize.val).2 }, [],
      Or.inr ⟨fun b hb => ?_, ?_⟩⟩
    · rw [PacketQueue.parts, hrx, List.append_nil] at hb
      exact hmarked b hb
    · simp only [sendPending, hlast, if_neg (not_lt.mpr hdelay), ← hbatch, PacketQueue.sendUnacked,
        hbufs, PacketQueue.sendBuffers, Ultinet.done, Env.send,
        hperfect env.attempts (addr, doneDatagram id)]
  | cons buf bufs =>
    rw [hbufs] at hall
    refine ⟨{ p with
      packetQueue := (p.packetQueue.unacked batchSize.val).2
      missedAcks := p.missedAcks + (p.lastBatchSize - p.lastBatchAcks)
      batchSize
      lastBatchSize := (buf :: bufs).length
      lastBatchAcks := 0
      lastSend := some env.now }, buf :: bufs, Or.inl ⟨List.cons_ne_nil _ _, fun b hb => ?_, ?_⟩⟩
    · rw [← hbufs] at hb
      exact PacketQueue.mem_unacked hb
    · simp only [sendPending, hlast, if_neg (not_lt.mpr hdelay), ← hbatch, PacketQueue.sendUnacked,
        hbufs, hall, List.length_cons, Env.record_now]

/-- Without errors of the socket, sending the pending parts does not fail. -/
theorem sendPending_noError (p : PacketOut) (id : PacketId) (resendDelay : ℕ) (addr : SocketAddr)
    (hno : env.NoError) : ∃ finished, (p.sendPending id resendDelay addr env).1 = .ok finished := by
  have hdone : ∀ env : Env, env.NoError → ∃ finished, (Ultinet.done id addr env).1 = .ok finished := by
    intro env hno
    unfold Ultinet.done
    rcases env.send_cases addr (doneDatagram id) with
      ⟨hsend, -⟩ | ⟨hsend, -⟩ | ⟨error, -, hanswer⟩
    · rw [hsend]
      exact ⟨true, rfl⟩
    · rw [hsend]
      exact ⟨false, rfl⟩
    · exact absurd hanswer (hno _ _ _)
  unfold sendPending
  split
  · exact hdone env hno
  · split_ifs
    · exact ⟨false, rfl⟩
    · dsimp only [PacketQueue.sendUnacked]
      obtain ⟨k, -, tried, henv, hres⟩ := PacketQueue.sendBuffers_spec addr 0
        (p.packetQueue.unacked
          (balanceBatchSize p.batchSize p.lastBatchAcks p.lastBatchSize).val).1 env
      rcases hsend : PacketQueue.sendBuffers addr 0 (p.packetQueue.unacked
          (balanceBatchSize p.batchSize p.lastBatchAcks p.lastBatchSize).val).1 env with
        ⟨result, env'⟩
      rw [hsend] at henv hres
      subst henv
      split
      · rename_i error _ _ heq
        cases heq
        rcases hres with ⟨error', -, hfail⟩ | hok
        · exact absurd hno hfail
        · cases hok
      · rename_i heq
        cases heq
        exact hdone _ hno
      · exact ⟨false, rfl⟩

end PacketOut

/-! ## Updating the buffers of a peer -/

/-- What was sent does not change the socket. -/
theorem Env.Perfect.record {env : Env} (h : env.Perfect) (attempts sent : List (SocketAddr × Bytes)) :
    (env.record attempts sent).Perfect := by
  intro attempts' datagram
  rw [Env.record_answer]
  exact h attempts' datagram

/-- A socket that accepts everything does not fail. -/
theorem Env.Perfect.noError {env : Env} (h : env.Perfect) : env.NoError := by
  intro attempts datagram error
  rw [h attempts datagram]
  intro heq
  cases heq

namespace PacketBuffers

/-- No buffer in a channel is marked. -/
def Unmarked (b : PacketBuffers) : Prop :=
  ∀ id p, b.sendBuffer.packets.get? id = some p → p.packetQueue.Unmarked

variable {b b' : PacketBuffers} {addr : SocketAddr} {env env' : Env}

/-- New buffers send no packet yet. -/
theorem unmarked_new (batchSize : NonZeroBatchSize) : (new batchSize).Unmarked := by
  intro id p hget
  cases hget

/-- A packet that is sent has an unmarked queue. -/
theorem Unmarked.send {packet : List Bytes} {threshold : ℕ} {result : IoResult PacketId}
    (hb : b.Unmarked) (h : b.send packet threshold addr env = .ok (result, b', env')) :
    b'.Unmarked := by
  obtain ⟨serialized, hserialize, ⟨error, -, -, rfl⟩ | ⟨packetOut, hsend, -, rfl⟩⟩ := send_cases h
  · exact hb
  · intro id p hget
    dsimp only at hget
    rw [SortedMap.get?_insert] at hget
    split_ifs at hget
    · cases hget
      refine PacketOut.unmarked_send (fun rx hrx => ?_) hsend
      subst hrx
      exact serializePacket_noneAcked hserialize
    · exact hb id p hget

/-- Datagrams do not reach the channel of a packet. -/
theorem Unmarked.handle {buf : Bytes} {result : Except HandlePacketError PacketHandling}
    (hb : b.Unmarked) (h : b.handle buf addr env = .ok (result, b', env')) : b'.Unmarked := by
  -- only an ack changes a packet that is being sent
  have hack : ∀ id p, (b.sendBuffer.handleFields buf).2.packets.get? id = some p →
      p.packetQueue.Unmarked := by
    intro id p hget
    rcases b.sendBuffer.handle_cases buf with hsame | ⟨id', seqIndex, hack⟩
    · rw [hsame] at hget
      exact hb id p hget
    · rw [hack, SendPacketBuffer.ack] at hget
      cases hpacket : b.sendBuffer.packets.get? id' with
      | none =>
        rw [hpacket] at hget
        exact hb id p hget
      | some packet =>
        have hmarked := PacketOut.unmarked_ack (hb id' packet hpacket) seqIndex
        have hinsert : (b.sendBuffer.packets.insert id' (packet.ack seqIndex).2).get? id = some p := by
          rw [hpacket] at hget
          dsimp only at hget
          split at hget <;> exact hget
        rw [SortedMap.get?_insert] at hinsert
        split_ifs at hinsert
        · cases hinsert
          exact hmarked
        · exact hb id p hinsert
  unfold PacketBuffers.handle at h
  split at h
  · cases h
    exact hb
  · rename_i kind rest
    cases hreceive : b.receiveBuffer.handle (kind :: rest) addr env with
    | error abort => simp [hreceive, bind, Except.bind] at h
    | ok received =>
      obtain ⟨result', receiveBuffer, env''⟩ := received
      simp only [hreceive, SendPacketBuffer.handle_eq, bind, Except.bind, pure, Except.pure] at h
      split at h
      · cases h
        exact hb
      · cases h
        exact hb
      · cases h
        exact hb
      · split at h <;> cases h <;> exact hack

/-- What is left after a timeout was there before it. -/
theorem get?_timeoutPackets {maxMissedAcks receiveTimeout : Option ℕ} {id : PacketId} :
    (b.timeoutPackets maxMissedAcks receiveTimeout env).sendBuffer.packets.get? id =
      (b.sendBuffer.packets.get? id).filter fun p => maxMissedAcks.all fun m => p.missedAcks ≤ m := by
  unfold timeoutPackets
  cases maxMissedAcks with
  | none => cases b.sendBuffer.packets.get? id <;> rfl
  | some m =>
    simp only [SendPacketBuffer.timeoutPackets, SortedMap.get?_retain, Option.all_some]

/-- The packets that are kept are kept as they are. -/
theorem Unmarked.timeoutPackets (hb : b.Unmarked) (maxMissedAcks receiveTimeout : Option ℕ)
    (env : Env) : (b.timeoutPackets maxMissedAcks receiveTimeout env).Unmarked := by
  intro id p hget
  rw [get?_timeoutPackets, Option.filter_eq_some_iff] at hget
  exact hb id p hget.1

/-- An update only pulls. -/
theorem Unmarked.update {resendDelay : ℕ} {maxMissedAcks receiveTimeout : Option ℕ}
    {result : IoResult Unit} (hb : b.Unmarked)
    (h : b.update resendDelay maxMissedAcks receiveTimeout addr env = (result, b', env')) :
    b'.Unmarked := by
  unfold PacketBuffers.update SendPacketBuffer.sendPending at h
  cases h
  refine SortedMap.retainState_invariant
    (I := fun (_ : SendPacketBuffer.Pass) (m : SortedMap PacketId PacketOut) =>
      ∀ id p, m.get? id = some p → p.packetQueue.Unmarked) ?_
    (hb.timeoutPackets maxMissedAcks receiveTimeout env)
  intro pass m id packet hm hget id' p hget'
  rw [SortedMap.get?_update] at hget'
  split_ifs at hget' with hid
  · have hpacket := hm id packet hget
    have hsent := PacketOut.unmarked_sendPending hpacket id resendDelay addr pass.env
    unfold SendPacketBuffer.visit at hget'
    dsimp only at hget'
    split at hget'
    · cases hget'
      exact hpacket
    · split at hget' <;> rename_i heq <;> rw [heq] at hsent
      · split_ifs at hget'
        cases hget'
        exact hsent
      · cases hget'
        exact hsent
  · exact hm id' p hget'

/-- What the visits of a pass do to the socket and to the result. -/
structure PassGoesOn (addr : SocketAddr) (pass pass' : SendPacketBuffer.Pass) : Prop where
  env : ∃ tried bufs : List Bytes,
    pass'.env = pass.env.record (tried.map (Prod.mk addr)) (bufs.map (Prod.mk addr))
  result : pass.env.NoError → pass.result = .ok () → pass'.result = .ok ()

namespace PassGoesOn

variable {pass pass' pass'' : SendPacketBuffer.Pass}

/-- A pass that did nothing went on. -/
theorem refl (pass : SendPacketBuffer.Pass) : PassGoesOn addr pass pass :=
  ⟨⟨[], [], by simp⟩, fun _ => id⟩

/-- Passes that go on can be put together. -/
theorem trans (h : PassGoesOn addr pass pass') (h' : PassGoesOn addr pass' pass'') :
    PassGoesOn addr pass pass'' := by
  obtain ⟨tried, bufs, henv⟩ := h.env
  obtain ⟨tried', bufs', henv'⟩ := h'.env
  refine ⟨⟨tried ++ tried', bufs ++ bufs', ?_⟩, fun hno hok => ?_⟩
  · rw [henv', henv, Env.record_record, List.map_append, List.map_append]
  · refine h'.result ?_ (h.result hno hok)
    intro attempts datagram error
    rw [henv, Env.record_answer]
    exact hno attempts datagram error

/-- A datagram that was sent stays sent. -/
theorem mem_sent (h : PassGoesOn addr pass pass') {datagram : SocketAddr × Bytes}
    (hmem : datagram ∈ pass.env.sent) : datagram ∈ pass'.env.sent := by
  obtain ⟨tried, bufs, henv⟩ := h.env
  rw [henv, Env.record_sent]
  exact List.mem_append_left _ hmem

/-- Visiting one packet is a pass that goes on. -/
theorem visit (resendDelay : ℕ) (addr : SocketAddr) (pass : SendPacketBuffer.Pass) (id : PacketId)
    (packet : PacketOut) :
    PassGoesOn addr pass (SendPacketBuffer.visit resendDelay addr pass id packet).1 := by
  refine ⟨SendPacketBuffer.visit_env resendDelay addr pass id packet, fun hno hok => ?_⟩
  obtain ⟨finished, hfinished⟩ := packet.sendPending_noError id resendDelay addr hno
  rcases hsend : packet.sendPending id resendDelay addr pass.env with ⟨result, packet', env⟩
  rw [hsend] at hfinished
  cases hfinished
  simp only [SendPacketBuffer.visit, hok, hsend]

end PassGoesOn

/-- An update uses the socket only to send to the address. -/
theorem update_env {resendDelay : ℕ} {maxMissedAcks receiveTimeout : Option ℕ}
    {result : IoResult Unit}
    (h : b.update resendDelay maxMissedAcks receiveTimeout addr env = (result, b', env')) :
    ∃ tried bufs : List Bytes,
      env' = env.record (tried.map (Prod.mk addr)) (bufs.map (Prod.mk addr)) := by
  unfold PacketBuffers.update SendPacketBuffer.sendPending at h
  cases h
  exact (SortedMap.retainState_state (R := PassGoesOn addr) .refl (fun _ _ _ => .trans)
    (PassGoesOn.visit resendDelay addr) _ _).env

/-- **An update services every packet that is due**, with a socket that accepts everything. -/
theorem update_serviced {resendDelay : ℕ} {maxMissedAcks receiveTimeout : Option ℕ}
    {result : IoResult Unit} {id : PacketId} {p : PacketOut} (hb : b.Unmarked)
    (hget : b.sendBuffer.packets.get? id = some p) (hdue : p.Due resendDelay env.now)
    (hperfect : env.Perfect)
    (h : b.update resendDelay maxMissedAcks receiveTimeout addr env = (result, b', env')) :
    result = .ok () ∧
      p.Serviced id maxMissedAcks addr env'.sent (b'.sendBuffer.packets.get? id) := by
  unfold PacketBuffers.update SendPacketBuffer.sendPending at h
  cases h
  set m := (b.timeoutPackets maxMissedAcks receiveTimeout env).sendBuffer.packets with hm
  let start : SendPacketBuffer.Pass := { batchSize := 0, count := 0, result := .ok (), env }
  have hpass : PassGoesOn addr start (m.retainState (SendPacketBuffer.visit resendDelay addr) start).1 :=
    SortedMap.retainState_state .refl (fun _ _ _ => .trans) (PassGoesOn.visit resendDelay addr) _ _
  refine ⟨hpass.result hperfect.noError rfl, ?_⟩
  have hfilter : m.get? id = (some p).filter fun p => maxMissedAcks.all fun m => p.missedAcks ≤ m := by
    rw [hm, get?_timeoutPackets, hget]
  by_cases hkeep : (maxMissedAcks.all fun m => decide (p.missedAcks ≤ m)) = true
  · rw [Option.filter_some, if_pos hkeep] at hfilter
    obtain ⟨pass, hbefore, hvisit, hafter⟩ := SortedMap.get?_retainState (R := PassGoesOn addr)
      .refl (fun _ _ _ => .trans) (PassGoesOn.visit resendDelay addr) start hfilter
    obtain ⟨tried, bufs, henv⟩ := hbefore.env
    have hok : pass.result = .ok () := hbefore.result hperfect.noError rfl
    have hperfect' : pass.env.Perfect := by
      rw [henv]
      exact hperfect.record _ _
    have hdue' : p.Due resendDelay pass.env.now := by
      rw [henv]
      exact hdue
    obtain ⟨p', batch, ⟨hne, hparts, hsend⟩ | ⟨hacked, hsend⟩⟩ :=
      PacketOut.sendPending_perfect id addr (hb id p hget) hdue' hperfect'
    · refine .resent batch hne hparts fun buf hbuf => hafter.mem_sent ?_
      simp only [SendPacketBuffer.visit, hok, hsend, Env.record_sent]
      exact List.mem_append_right _ (List.mem_map_of_mem hbuf)
    · refine .done hacked (hafter.mem_sent ?_) ?_
      · simp only [SendPacketBuffer.visit, hok, hsend, Env.record_sent]
        exact List.mem_append_right _ (List.mem_singleton_self _)
      · refine hvisit.trans ?_
        simp only [SendPacketBuffer.visit, hok, hsend, if_true]
  · -- the packet missed too many acks
    cases hmax : maxMissedAcks with
    | none => simp [hmax] at hkeep
    | some max =>
      have hmissed : max < p.missedAcks := by simpa [hmax] using hkeep
      refine .exceeded max rfl hmissed ?_
      rw [Option.filter_some, if_neg hkeep] at hfilter
      refine SortedMap.retainState_invariant
        (I := fun (_ : SendPacketBuffer.Pass) (m : SortedMap PacketId PacketOut) => m.get? id = none)
        ?_ hfilter
      intro pass m id' packet hnone hget'
      rw [SortedMap.get?_update]
      split_ifs with hid
      · subst hid
        rw [hnone] at hget'
        cases hget'
      · exact hnone

end PacketBuffers

end Ultinet
