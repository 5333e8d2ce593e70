import Ultinet.Packet.BatchAcks

/-!
# When a packet is given up

`timeout_packets` drops a packet that missed too many acks.  Here the packets being sent are observed
together with what the socket accepted and what the acks that arrive name (`Seen`): the last batch of a
packet and the parts of it that were acked, how many calls sent parts of the packet again since its
first batch or its last ack, and how many parts of the batches before these calls were not acked.

The code compares the number of these parts with its limit, not the number of the calls, and a batch of
many parts that is lost once is enough to give a packet up.  A packet is given up only after as many
resends as the limit says if no ack gets lost in the queue and no resend leaves more than one part of
the last batch unacked (`Rounds.gives_up_after_resends`), as it always is for packets of a single part.
-/

namespace Ultinet

namespace PacketOut

open PacketQueue

variable {id : PacketId} {addr : SocketAddr} {env env' : Env} {p p' : PacketOut}

/-! ## One packet -/

/-- The parts that a call of `sendPending` sends: what the socket accepts of the next batch. -/
def nextParts (p : PacketOut) (addr : SocketAddr) (env : Env) : Finset ℕ :=
  (p.nextBatch addr env).2.1.acceptedParts env (p.nextBatch addr env).2.2

/-- How many parts a call of `sendPending` sends again: what the socket accepts of the next batch. -/
def resentParts (p : PacketOut) (resendDelay : ℕ) (addr : SocketAddr) (env : Env) : ℕ :=
  match p.lastSend with
  | none => 0
  | some lastSend =>
      if resendDelay ≤ elapsed env.now lastSend then
        (p.nextBatch addr env).2.2.sent.length - env.sent.length
      else 0

/-- If the next batch is sent without an error then as many parts are sent again as it counts. -/
theorem resentParts_eq {resendDelay count : ℕ} {all : Bool} (hdue : p.Due resendDelay env.now)
    (hsend : (p.nextBatch addr env).1 = .ok (count, all)) :
    p.resentParts resendDelay addr env = count ∧ (p.nextParts addr env).card = count ∧
      count ≤ batchSizeMax := by
  obtain ⟨lastSend, hlast, hdelay⟩ := hdue
  obtain ⟨hsent, -⟩ := PacketQueue.sendUnacked_count hsend
  have hsent' : (p.nextBatch addr env).2.2.sent.length = env.sent.length + count := hsent
  refine ⟨?_, card_acceptedParts hsend⟩
  simp only [resentParts, hlast, if_pos hdelay]
  omega

end PacketOut

/-- What was seen of a packet that is being sent. -/
structure Seen where
  /-- The last batch, with the acks of the receiver. -/
  batch : Batch
  /-- How many calls sent parts again, since the first batch or the last ack. -/
  resends : ℕ
  /-- How many parts of the batches before these calls were not acked. -/
  missing : ℕ

namespace Seen

/-- The packet was sent for the first time. -/
def start (parts : Finset ℕ) : Seen where
  batch := .first parts
  resends := 0
  missing := 0

/-- An ack of a part arrived. -/
def ack (seen : Seen) (seqIndex : ℕ) : Seen where
  batch := seen.batch.ack seqIndex
  resends := 0
  missing := 0

/-- A call of `sendPending`. -/
def sendPending (seen : Seen) (p : PacketOut) (resendDelay : ℕ) (addr : SocketAddr) (env : Env) :
    Seen :=
  let resends := if 0 < p.resentParts resendDelay addr env then seen.resends + 1 else seen.resends
  if p.sendsBatch resendDelay addr env then
    { batch := seen.batch.next (p.nextParts addr env)
      resends
      missing := seen.missing + seen.batch.missing.card }
  else { seen with resends }

end Seen

namespace PacketOut

variable {id : PacketId} {addr : SocketAddr} {env env' : Env} {p p' : PacketOut} {seen : Seen}

/-- The code counts all the acks that were seen of the last batch, and does not count more parts as
missed than were seen to be. -/
structure Matches (p : PacketOut) (seen : Seen) : Prop where
  before_subset : seen.batch.before ⊆ seen.batch.acked
  size : p.lastBatchSize = seen.batch.parts.card
  le : p.lastBatchSize ≤ batchSizeMax
  acks : seen.batch.ackedParts.card ≤ p.lastBatchAcks
  missed : p.missedAcks ≤ seen.missing

/-- The packet after its first batch. -/
theorem send_batch {serialized : SerializedPacket} {batchSize : NonZeroBatchSize}
    (h : PacketOut.send serialized addr batchSize env = (.ok p, env')) :
    (p.packetQueue.acceptedParts env env').card = p.lastBatchSize ∧
      p.lastBatchSize ≤ batchSizeMax ∧
      p.lastBatchSize ≤ ((PacketQueue.new serialized).unacked batchSize.val).1.length ∧
      p.packetQueue = (PacketQueue.new serialized).pull batchSize.val ∧ p.missedAcks = 0 := by
  unfold PacketOut.send at h
  dsimp only at h
  have hqueue : ((PacketQueue.new serialized).sendUnacked batchSize addr env).2.1 =
      (PacketQueue.new serialized).pull batchSize.val := rfl
  have hcard : ∀ count all,
      ((PacketQueue.new serialized).sendUnacked batchSize addr env).1 = .ok (count, all) →
      (((PacketQueue.new serialized).sendUnacked batchSize addr env).2.1.acceptedParts env
        ((PacketQueue.new serialized).sendUnacked batchSize addr env).2.2).card = count ∧
        count ≤ batchSizeMax ∧
        count ≤ ((PacketQueue.new serialized).unacked batchSize.val).1.length := by
    intro count all hresult
    obtain ⟨hcard, hle⟩ := PacketQueue.card_acceptedParts hresult
    exact ⟨hcard, hle, (PacketQueue.sendUnacked_count hresult).2⟩
  generalize (PacketQueue.new serialized).sendUnacked batchSize addr env = sent at h hcard hqueue
  obtain ⟨result, queue, env''⟩ := sent
  cases result with
  | error error => cases h
  | ok batch =>
    obtain ⟨count, all⟩ := batch
    obtain ⟨hparts, hle, hbatch⟩ := hcard count all rfl
    cases h
    exact ⟨hparts, hle, hbatch, hqueue, rfl⟩

/-- The first batch. -/
theorem Matches.send {serialized : SerializedPacket} {batchSize : NonZeroBatchSize}
    (h : PacketOut.send serialized addr batchSize env = (.ok p, env')) :
    p.Matches (.start (p.packetQueue.acceptedParts env env')) := by
  obtain ⟨hcard, hle, -, -, hmissed⟩ := send_batch h
  have hnone : (Seen.start (p.packetQueue.acceptedParts env env')).batch.ackedParts = ∅ :=
    Batch.ackedParts_first _
  constructor
  · exact Finset.Subset.refl _
  · exact hcard.symm
  · exact hle
  · rw [hnone, Finset.card_empty]
    exact Nat.zero_le _
  · rw [hmissed]
    exact Nat.zero_le _

/-- An ack that does not get lost in the queue. -/
theorem Matches.ack (h : p.Matches seen) {seqIndex : ℕ}
    (hmarks : seen.batch.IsNew seqIndex → p.packetQueue.marks seqIndex = true) :
    (p.ack seqIndex).2.Matches (seen.ack seqIndex) := by
  obtain ⟨hsize, hmissed, hacks⟩ := p.ack_counters seqIndex
  have hcard := Batch.card_ackedParts_ack h.before_subset seqIndex
  have hsub := Finset.card_le_card (seen.batch.ack seqIndex).ackedParts_subset
  refine ⟨h.before_subset.trans (Finset.subset_insert _ _), hsize.trans h.size, ?_, ?_, hmissed.le⟩
  · rw [hsize]
    exact h.le
  · -- a counter that is full counts a whole batch
    have hfull : (seen.batch.ack seqIndex).ackedParts.card ≤ batchSizeMax := by
      refine hsub.trans ?_
      change seen.batch.parts.card ≤ batchSizeMax
      rw [← h.size]
      exact h.le
    have hold := h.acks
    change (seen.batch.ack seqIndex).ackedParts.card ≤ (p.ack seqIndex).2.lastBatchAcks
    rw [hacks]
    by_cases hnew : seen.batch.IsNew seqIndex
    · rw [if_pos hnew] at hcard
      rw [if_pos (hmarks hnew)]
      refine le_min ?_ hfull
      rw [hcard]
      exact Nat.succ_le_succ hold
    · rw [if_neg hnew, add_zero] at hcard
      split_ifs
      · refine le_min ?_ hfull
        rw [hcard]
        exact hold.trans (Nat.le_succ _)
      · rw [hcard]
        exact hold

/-- A call of `sendPending`. -/
theorem Matches.sendPending (h : p.Matches seen) (id : PacketId) (resendDelay : ℕ)
    (addr : SocketAddr) (env : Env) :
    (p.sendPending id resendDelay addr env).2.1.Matches (seen.sendPending p resendDelay addr env) := by
  rcases p.sendPending_batch id resendDelay addr env with ⟨hsends, hsize, hacks, hmissed, -⟩ |
    ⟨hsends, hdue, count, all, hsend, -, -, -, hsize, hacks, hmissed⟩
  · unfold Seen.sendPending
    rw [hsends]
    constructor
    · exact h.before_subset
    · exact hsize.trans h.size
    · rw [hsize]
      exact h.le
    · rw [hacks]
      exact h.acks
    · rw [hmissed]
      exact h.missed
  · obtain ⟨-, hcard, hle⟩ := resentParts_eq hdue hsend
    have hseen : (seen.sendPending p resendDelay addr env).batch =
          seen.batch.next (p.nextParts addr env) ∧
        (seen.sendPending p resendDelay addr env).missing =
          seen.missing + seen.batch.missing.card := by
      unfold Seen.sendPending
      rw [hsends]
      exact ⟨rfl, rfl⟩
    obtain ⟨hbatch, hmissing⟩ := hseen
    have hsized := h.size
    have hacked := h.acks
    have hbefore := h.missed
    constructor
    · rw [hbatch]
      exact Finset.Subset.refl _
    · rw [hbatch, hsize]
      exact hcard.symm
    · rw [hsize]
      exact hle
    · rw [hbatch, Batch.ackedParts_next, Finset.card_empty]
      exact Nat.zero_le _
    · rw [hmissing, hmissed, Batch.card_missing]
      omega

end PacketOut

/-! ## Datagrams that ack -/

/-- The part that a datagram acks. -/
def ackedPart (buf : Bytes) : Option (PacketId × ℕ) :=
  match buf.head?.bind PacketKind.tryFrom with
  | some .ack =>
      let idEnd := packetKindSize + packetIdSize
      match (slice buf packetKindSize idEnd).bind Uuid.fromSlice,
        (slice buf idEnd (idEnd + seqIndexSize)).bind SeqIndex.fromLeBytes with
      | some id, some seqIndex => some (id, seqIndex)
      | _, _ => none
  | _ => none

/-- Only acks ack a part. -/
theorem ackedPart_of_ne {buf : Bytes} (h : buf.head?.bind PacketKind.tryFrom ≠ some .ack) :
    ackedPart buf = none := by
  unfold ackedPart
  split
  · rename_i hack
    exact absurd hack h
  · rfl

/-- What a datagram does to the packets being sent. -/
theorem SendPacketBuffer.handle_ackedPart (b : SendPacketBuffer) (buf : Bytes) :
    (ackedPart buf = none ∧ (b.handleFields buf).2 = b) ∨
    ∃ id seqIndex, ackedPart buf = some (id, seqIndex) ∧
      (b.handleFields buf).2 = (b.ack id seqIndex).2 := by
  cases hhead : buf.head? with
  | none =>
    refine Or.inl ⟨?_, ?_⟩
    · simp only [ackedPart, hhead, Option.bind_none]
    · simp only [handleFields, hhead]
  | some byte =>
    by_cases hkind : PacketKind.tryFrom byte = some .ack
    · cases hid : (slice buf packetKindSize (packetKindSize + packetIdSize)).bind
          Uuid.fromSlice with
      | none =>
        refine Or.inl ⟨?_, ?_⟩
        · simp only [ackedPart, hhead, Option.bind_some, hkind, hid]
        · simp only [handleFields, hhead, hkind, hid]
      | some id =>
        cases hseq : (slice buf (packetKindSize + packetIdSize)
            (packetKindSize + packetIdSize + seqIndexSize)).bind SeqIndex.fromLeBytes with
        | none =>
          refine Or.inl ⟨?_, ?_⟩
          · simp only [ackedPart, hhead, Option.bind_some, hkind, hid, hseq]
          · simp only [handleFields, hhead, hkind, hid, hseq]
        | some seqIndex =>
          refine Or.inr ⟨id, seqIndex, ?_, ?_⟩
          · simp only [ackedPart, hhead, Option.bind_some, hkind, hid, hseq]
          · simp only [handleFields, hhead, hkind, hid, hseq]
            rcases b.ack id seqIndex with ⟨result, b'⟩
            cases result <;> rfl
    · refine Or.inl ⟨ackedPart_of_ne ?_, ?_⟩
      · rw [hhead]
        exact hkind
      · unfold handleFields
        rw [hhead]
        dsimp only
        split
        · rename_i hack
          exact absurd hack hkind
        · rfl

/-- What a datagram does to the packets being sent, in the buffers of a peer. -/
theorem PacketBuffers.handle_ackedPart {b b' : PacketBuffers} {buf : Bytes} {addr : SocketAddr}
    {env env' : Env} {result : Except HandlePacketError PacketHandling}
    (h : b.handle buf addr env = .ok (result, b', env')) :
    (ackedPart buf = none ∧ b'.sendBuffer = b.sendBuffer) ∨
    ∃ id seqIndex, ackedPart buf = some (id, seqIndex) ∧
      b'.sendBuffer = (b.sendBuffer.ack id seqIndex).2 := by
  have hsend := b.sendBuffer.handle_ackedPart buf
  unfold handle at h
  cases buf with
  | nil =>
    cases h
    exact Or.inl ⟨rfl, rfl⟩
  | cons byte rest =>
    dsimp only at h
    by_cases hkind : PacketKind.tryFrom byte = some .ack
    · -- an ack does not concern the packets being received
      have hunhandled : b.receiveBuffer.handle (byte :: rest) addr env =
          .ok (.ok .unhandled, b.receiveBuffer, env) := by
        simp only [ReceivePacketBuffer.handle_eq, ReceivePacketBuffer.handleFields, List.head?_cons,
          hkind]
      simp only [hunhandled, SendPacketBuffer.handle_eq, bind, Except.bind, pure, Except.pure] at h
      rcases hsend with ⟨hnone, hsame⟩ | ⟨id, seqIndex, hacked, hafter⟩
      · refine Or.inl ⟨hnone, ?_⟩
        rw [← hsame]
        split at h <;> cases h <;> rfl
      · refine Or.inr ⟨id, seqIndex, hacked, ?_⟩
        rw [← hafter]
        split at h <;> cases h <;> rfl
    · have hnone : ackedPart (byte :: rest) = none := ackedPart_of_ne hkind
      refine Or.inl ⟨hnone, ?_⟩
      have hsame : (b.sendBuffer.handleFields (byte :: rest)).2 = b.sendBuffer := by
        rcases hsend with ⟨-, hsame⟩ | ⟨id, seqIndex, hacked, -⟩
        · exact hsame
        · rw [hnone] at hacked
          cases hacked
      obtain ⟨⟨result', receiveBuffer, env''⟩, -, h⟩ := exists_of_bind_ok h
      dsimp only at h
      split at h
      · cases h
        rfl
      · cases h
        rfl
      · cases h
        rfl
      · rw [SendPacketBuffer.handle_eq] at h
        dsimp only [bind, Except.bind] at h
        split at h <;> cases h <;> exact hsame

/-! ## The buffers of a connection -/

/-- The packets of a connection, and what was seen of those that are being sent. -/
structure Rounds where
  buffers : PacketBuffers
  seen : PacketId → Seen

namespace Rounds

/-- The calls of the buffers. -/
inductive Op
  | send (packet : List Bytes) (threshold : ℕ) (env : Env)
  | handle (buf : Bytes) (env : Env)
  | update (resendDelay : ℕ) (receiveTimeout : Option ℕ) (env : Env)

/-- No packets. -/
def init (initialSendBatchSize : NonZeroBatchSize) : Rounds where
  buffers := .new initialSendBatchSize
  seen := fun _ => .start ∅

/-- The packets that are left when the ones that timed out are forgotten. -/
def kept (r : Rounds) (m : ℕ) : SortedMap PacketId PacketOut :=
  (r.buffers.sendBuffer.timeoutPackets m).packets

/-- The pass of an update, when it visits a packet. -/
def passAt (r : Rounds) (m resendDelay : ℕ) (addr : SocketAddr) (env : Env) (id : PacketId) :
    SendPacketBuffer.Pass :=
  (r.kept m).stateAt (SendPacketBuffer.visit resendDelay addr)
    { batchSize := 0, count := 0, result := .ok (), env } id

/-- What an update means for a packet.  It is not sent again once sending another one failed. -/
def seenUpdate (r : Rounds) (m resendDelay : ℕ) (addr : SocketAddr) (env : Env) (id : PacketId) :
    Seen :=
  match (r.kept m).get? id, (r.passAt m resendDelay addr env id).result with
  | some p, .ok () =>
      (r.seen id).sendPending p resendDelay addr (r.passAt m resendDelay addr env id).env
  | _, _ => r.seen id

/-- The parts that the first batch of a packet sent. -/
def firstParts (buffers : PacketBuffers) (id : PacketId) (env env' : Env) : Finset ℕ :=
  (buffers.sendBuffer.packets.get? id).elim ∅ fun p => p.packetQueue.acceptedParts env env'

/-- One call, with a limit for the acks that a packet may miss; there is none if the code panics. -/
def step (m : ℕ) (addr : SocketAddr) (r : Rounds) : Op → Option Rounds
  | .send packet threshold env => do
      let (result, buffers, env') ← (r.buffers.send packet threshold addr env).toOption
      match result with
      | .ok id =>
          return { buffers
                   seen := Function.update r.seen id (.start (firstParts buffers id env env')) }
      | .error _ => return { r with buffers }
  | .handle buf env => do
      let (_, buffers, _) ← (r.buffers.handle buf addr env).toOption
      match ackedPart buf with
      | some (id, seqIndex) =>
          return { buffers, seen := Function.update r.seen id ((r.seen id).ack seqIndex) }
      | none => return { r with buffers }
  | .update resendDelay receiveTimeout env =>
      some { buffers := (r.buffers.update resendDelay (some m) receiveTimeout addr env).2.1
             seen := r.seenUpdate m resendDelay addr env }

/-- The transition system of the buffers of a connection. -/
def system (m : ℕ) (addr : SocketAddr) : Lts Rounds Op where
  step := step m addr

/-- A predicate on a packet and what was seen of it holds of all packets. -/
def All (I : PacketId → PacketOut → Seen → Prop) (r : Rounds) : Prop :=
  ∀ id p, r.buffers.sendBuffer.packets.get? id = some p → I id p (r.seen id)

variable {m : ℕ} {addr : SocketAddr} {r r' : Rounds} {I : PacketId → PacketOut → Seen → Prop}

/-- A packet is left if it has not missed more acks than the limit says. -/
theorem get?_kept (r : Rounds) (m : ℕ) (id : PacketId) :
    (r.kept m).get? id =
      (r.buffers.sendBuffer.packets.get? id).filter fun p => decide (p.missedAcks ≤ m) :=
  SortedMap.get?_retain _ _ _

/-- What is left was there before. -/
theorem get?_of_kept {id : PacketId} {p : PacketOut} (h : (r.kept m).get? id = some p) :
    r.buffers.sendBuffer.packets.get? id = some p := by
  rw [get?_kept, Option.filter_eq_some_iff] at h
  exact h.1

/-- What an update makes of a packet. -/
theorem get?_update {resendDelay : ℕ} {receiveTimeout : Option ℕ} {env : Env} {id : PacketId}
    {p' : PacketOut}
    (h : (r.buffers.update resendDelay (some m) receiveTimeout addr env).2.1.sendBuffer.packets.get?
      id = some p') :
    ∃ p, (r.kept m).get? id = some p ∧ r.buffers.sendBuffer.packets.get? id = some p ∧
      ((p' = p ∧ r.seenUpdate m resendDelay addr env id = r.seen id) ∨
        (p' = (p.sendPending id resendDelay addr (r.passAt m resendDelay addr env id).env).2.1 ∧
          r.seenUpdate m resendDelay addr env id = (r.seen id).sendPending p resendDelay addr
            (r.passAt m resendDelay addr env id).env)) := by
  have hget : (((r.kept m).retainState (SendPacketBuffer.visit resendDelay addr)
      { batchSize := 0, count := 0, result := .ok (), env }).2).get? id = some p' := h
  rw [SortedMap.get?_retainState_eq, Option.bind_eq_some_iff] at hget
  obtain ⟨p, hkept, hvisit⟩ := hget
  refine ⟨p, hkept, get?_of_kept hkept, ?_⟩
  change (SendPacketBuffer.visit resendDelay addr (r.passAt m resendDelay addr env id) id p).2 =
    some p' at hvisit
  unfold seenUpdate
  rw [hkept]
  unfold SendPacketBuffer.visit at hvisit
  dsimp only at hvisit
  cases hresult : (r.passAt m resendDelay addr env id).result with
  | error error =>
    rw [hresult] at hvisit
    cases hvisit
    exact Or.inl ⟨rfl, rfl⟩
  | ok _ =>
    rw [hresult] at hvisit
    refine Or.inr ⟨?_, rfl⟩
    dsimp only at hvisit
    split at hvisit <;> rename_i heq
    · rw [heq]
      split_ifs at hvisit
      exact (Option.some.inj hvisit).symm
    · rw [heq]
      exact (Option.some.inj hvisit).symm

/-- **The rule for packets that are being sent.**  What holds of a packet after its first batch, and is
kept by every ack and every call of `sendPending` that is guarded, holds of all packets after every
step. -/
theorem All.step (okAck : PacketId → PacketOut → Seen → ℕ → Prop)
    (okSend : PacketId → PacketOut → Seen → ℕ → Env → Prop) {op : Op}
    (hstart : ∀ id packet threshold env₀ serialized batchSize env env' p,
      op = .send packet threshold env₀ → serializePacket id threshold packet = .ok serialized →
      PacketOut.send serialized addr batchSize env = (.ok p, env') →
        I id p (.start (p.packetQueue.acceptedParts env env')))
    (hack : ∀ id p seen seqIndex, I id p seen → okAck id p seen seqIndex →
      I id (p.ack seqIndex).2 (seen.ack seqIndex))
    (hsend : ∀ id p seen resendDelay env, I id p seen → okSend id p seen resendDelay env →
      I id (p.sendPending id resendDelay addr env).2.1 (seen.sendPending p resendDelay addr env))
    (hokAck : ∀ buf env, op = .handle buf env → ∀ id seqIndex, ackedPart buf = some (id, seqIndex) →
      ∀ p, r.buffers.sendBuffer.packets.get? id = some p → okAck id p (r.seen id) seqIndex)
    (hokSend : ∀ resendDelay receiveTimeout env, op = .update resendDelay receiveTimeout env →
      ∀ id p, (r.kept m).get? id = some p →
        okSend id p (r.seen id) resendDelay (r.passAt m resendDelay addr env id).env)
    (h : r.All I) (hstep : step m addr r op = some r') : r'.All I := by
  cases op with
  | send packet threshold env =>
    simp only [Rounds.step, Option.bind_eq_bind, Option.bind_eq_some_iff] at hstep
    obtain ⟨⟨result, buffers, env'⟩, hcall, heq⟩ := hstep
    rw [toOption_eq_some] at hcall
    obtain ⟨serialized, hserialize, ⟨error, -, rfl, rfl⟩ | ⟨packetOut, hout, rfl, rfl⟩⟩ :=
      PacketBuffers.send_cases hcall
    · cases heq
      exact h
    · cases heq
      intro id p hget
      dsimp only at hget ⊢
      by_cases hid : id = env.newUuid.1
      · subst hid
        rw [SortedMap.get?_insert, if_pos rfl] at hget
        cases hget
        rw [Function.update_self, firstParts, SortedMap.get?_insert, if_pos rfl]
        exact hstart _ packet threshold env serialized r.buffers.sendBuffer.batchSize env.newUuid.2
          env' packetOut rfl hserialize hout
      · rw [SortedMap.get?_insert, if_neg hid] at hget
        rw [Function.update_of_ne hid]
        exact h id p hget
  | handle buf env =>
    simp only [Rounds.step, Option.bind_eq_bind, Option.bind_eq_some_iff] at hstep
    obtain ⟨⟨result, buffers, env'⟩, hcall, heq⟩ := hstep
    rw [toOption_eq_some] at hcall
    rcases PacketBuffers.handle_ackedPart hcall with ⟨hnone, hsame⟩ | ⟨id, seqIndex, hacked, hafter⟩
    · rw [hnone] at heq
      cases heq
      intro k p hget
      dsimp only at hget
      rw [hsame] at hget
      exact h k p hget
    · rw [hacked] at heq
      cases heq
      intro k p hget
      dsimp only at hget ⊢
      rw [hafter, SendPacketBuffer.get?_ack] at hget
      split_ifs at hget with hk
      · subst hk
        rw [Option.map_eq_some_iff] at hget
        obtain ⟨p₀, hp₀, rfl⟩ := hget
        rw [Function.update_self]
        exact hack k p₀ (r.seen k) seqIndex (h k p₀ hp₀) (hokAck buf env rfl k seqIndex hacked p₀ hp₀)
      · rw [Function.update_of_ne hk]
        exact h k p hget
  | update resendDelay receiveTimeout env =>
    cases hstep
    intro id p' hget
    dsimp only at hget ⊢
    obtain ⟨p, hkept, hp, ⟨rfl, hseen⟩ | ⟨rfl, hseen⟩⟩ := get?_update hget
    · rw [hseen]
      exact h id p' hp
    · rw [hseen]
      exact hsend id p (r.seen id) resendDelay _ (h id p hp)
        (hokSend resendDelay receiveTimeout env rfl id p hkept)

/-- There are no packets in the beginning. -/
theorem All.init (batchSize : NonZeroBatchSize) : (init batchSize).All I := by
  intro id p hget
  cases hget

/-! ## When a packet is given up -/

end Rounds

/-- There is a resend for every part that is missing, and one more for a batch that may get lost. -/
def Seen.Balanced (seen : Seen) : Prop :=
  seen.missing + (if 0 < seen.batch.parts.card then 1 else 0) ≤ seen.resends + 1

namespace Seen

/-- The packet is sent again, and at most one part of its last batch is missing. -/
theorem Balanced.sendPending {seen : Seen} {p : PacketOut} {resendDelay : ℕ} {addr : SocketAddr}
    {env : Env} (h : seen.Balanced)
    (hone : p.sendsBatch resendDelay addr env = true → seen.batch.missing.card ≤ 1)
    (hresent : p.sendsBatch resendDelay addr env = true →
      p.resentParts resendDelay addr env = (p.nextParts addr env).card) :
    (seen.sendPending p resendDelay addr env).Balanced := by
  unfold Balanced at h ⊢
  unfold Seen.sendPending
  dsimp only
  by_cases hsends : p.sendsBatch resendDelay addr env = true
  · have hle := hone hsends
    -- no more is missing of a batch than was sent in it
    have hmissing := seen.batch.card_missing
    rw [if_pos hsends, hresent hsends]
    dsimp only [Batch.next]
    by_cases hnew : 0 < (p.nextParts addr env).card
    · simp only [hnew, if_true]
      split_ifs at h <;> omega
    · simp only [hnew, if_false]
      split_ifs at h <;> omega
  · rw [if_neg hsends]
    dsimp only
    split_ifs at h ⊢ <;> omega

end Seen

namespace Rounds

variable {m : ℕ} {addr : SocketAddr} {r r' : Rounds}

/-- Only packets of a single part are sent. -/
def SinglePart (_ : Rounds) (op : Op) : Prop :=
  ∀ packet threshold env, op = .send packet threshold env → chunkCount packet.flatten = 1

end Rounds

namespace PacketQueue

variable {q : PacketQueue} {k : ℕ}

/-- A part that is pending is at its position in the queue, without a mark. -/
theorem exists_of_mem_pendingParts (h : k ∈ q.pendingParts) :
    q.firstUnacked ≤ k ∧ q.marks (k - q.firstUnacked) = true := by
  obtain ⟨⟨b, i⟩, hmem, rfl⟩ := List.mem_map.mp h
  obtain ⟨hmem, hmark⟩ := List.mem_filter.mp hmem
  obtain ⟨hle, hget⟩ := List.mk_mem_zipIdx_iff_le_and_getElem?_sub.mp hmem
  refine ⟨hle, ?_⟩
  rw [marks, hget]
  exact hmark

/-- A position that is marked or not is one of the queue. -/
theorem lt_of_marks (h : q.marks k = true) : k < q.packets.length := by
  by_contra hge
  rw [marks, List.getElem?_eq_none (not_lt.mp hge)] at h
  cases h

/-- Pulling leaves the positions alone that are there. -/
theorem marks_pull (h : q.marks k = true) (count : ℕ) : (q.pull count).marks k = true := by
  obtain ⟨hpackets, -⟩ := q.pull_spec count
  rw [marks, hpackets, List.getElem?_append_left (lt_of_marks h)]
  exact h

/-- An ack only moves parts from the queue to the ones that are dropped. -/
theorem firstUnacked_add_length_ack (q : PacketQueue) (seqIndex : ℕ) :
    (q.ack seqIndex).2.firstUnacked + (q.ack seqIndex).2.parts.length =
      q.firstUnacked + q.parts.length := by
  unfold PacketQueue.ack
  split
  · rfl
  · split_ifs
    · rfl
    · rename_i packet _ _
      have hle : (q.packets.set seqIndex { packet with acked := true }).findIdx
          (fun packet => !packet.acked) ≤ q.packets.length := by
        rw [← List.length_set]
        exact List.findIdx_le_length
      simp only [parts, List.length_append, List.length_drop, List.length_set]
      omega

/-- An ack that finds no buffer without a mark changes nothing. -/
theorem ack_of_not_marks (h : ¬q.marks k = true) : (q.ack k).2 = q := by
  unfold marks at h
  rcases q.ack_outcome k with ⟨-, hack⟩ | ⟨b, -, -, hack⟩ | ⟨b, hget, hmark, -⟩
  · rw [hack]
  · rw [hack]
  · simp [hget, hmark] at h

end PacketQueue

/-- A packet of a single part.  As long as the part is not acked, an ack of it finds it. -/
structure PacketOut.Single (p : PacketOut) (seen : Seen) : Prop where
  parts : p.packetQueue.firstUnacked + p.packetQueue.parts.length ≤ 1
  batch : seen.batch.parts ⊆ {0}
  marks : ∀ k, seen.batch.IsNew k → p.packetQueue.marks k = true

namespace PacketOut.Single

variable {p : PacketOut} {seen : Seen} {addr : SocketAddr} {env env' : Env}

/-- No batch of a packet of a single part has another part. -/
theorem of_acceptedParts {q : PacketQueue} (hq : q.firstUnacked + q.parts.length ≤ 1) {k : ℕ}
    (h : k ∈ q.acceptedParts env env') : k = 0 ∧ q.marks k = true := by
  obtain ⟨hle, hmarks⟩ := PacketQueue.exists_of_mem_pendingParts
    (List.mem_of_mem_take (List.mem_toFinset.mp h))
  have hlt := PacketQueue.lt_of_marks hmarks
  have hlength : q.packets.length ≤ q.parts.length := by
    rw [PacketQueue.parts, List.length_append]
    exact Nat.le_add_right _ _
  have hfirst : q.firstUnacked = 0 := by omega
  rw [hfirst, Nat.sub_zero] at hmarks hlt
  exact ⟨by omega, hmarks⟩

/-- The first batch. -/
theorem send {id : PacketId} {threshold : ℕ} {packet : List Bytes} {serialized : SerializedPacket}
    {batchSize : NonZeroBatchSize} (hone : chunkCount packet.flatten = 1)
    (hserialize : serializePacket id threshold packet = .ok serialized)
    (hsend : PacketOut.send serialized addr batchSize env = (.ok p, env')) :
    p.Single (.start (p.packetQueue.acceptedParts env env')) := by
  have hsmall : chunkCount packet.flatten < seqIndexBound := by
    rw [hone]
    decide
  have hnew : (PacketQueue.new serialized).firstUnacked +
      (PacketQueue.new serialized).parts.length = 1 := by
    rw [serializePacket_eq hsmall] at hserialize
    cases hserialize
    split_ifs <;> simp [PacketQueue.new, PacketQueue.parts, hone]
  obtain ⟨-, -, -, hqueue, -⟩ := send_batch hsend
  have hparts : p.packetQueue.firstUnacked + p.packetQueue.parts.length ≤ 1 := by
    rw [hqueue, PacketQueue.parts_pull, PacketOut.pull_firstUnacked]
    exact hnew.le
  refine ⟨hparts, fun k hk => ?_, fun k hk => (of_acceptedParts hparts hk.1).2⟩
  exact Finset.mem_singleton.mpr (of_acceptedParts hparts hk).1

/-- Any ack, of the part or of another number. -/
theorem ack (h : p.Single seen) (seqIndex : ℕ) :
    (p.ack seqIndex).2.Single (seen.ack seqIndex) := by
  have hqueue : (p.ack seqIndex).2.packetQueue = (p.packetQueue.ack seqIndex).2 := by
    unfold PacketOut.ack
    dsimp only
    split <;> rename_i heq <;> rw [heq]
  refine ⟨?_, h.batch, fun k hnew => ?_⟩
  · rw [hqueue, PacketQueue.firstUnacked_add_length_ack]
    exact h.parts
  · obtain ⟨hk, hnot⟩ := hnew
    have hzero : k = 0 := Finset.mem_singleton.mp (h.batch hk)
    have hbefore : p.packetQueue.marks k = true :=
      h.marks k ⟨hk, fun hacked => hnot (Finset.mem_insert_of_mem hacked)⟩
    rw [hqueue, PacketQueue.ack_of_not_marks]
    · exact hbefore
    · -- the only position is the one of the part that is not acked
      intro hmarks
      have hlt := PacketQueue.lt_of_marks hmarks
      have hparts := h.parts
      have hlength : p.packetQueue.packets.length ≤ p.packetQueue.parts.length := by
        rw [PacketQueue.parts, List.length_append]
        exact Nat.le_add_right _ _
      refine hnot (Finset.mem_insert.mpr (Or.inl ?_))
      omega

/-- A call of `sendPending`. -/
theorem sendPending (h : p.Single seen) (id : PacketId) (resendDelay : ℕ) (addr : SocketAddr)
    (env : Env) :
    (p.sendPending id resendDelay addr env).2.1.Single (seen.sendPending p resendDelay addr env) := by
  unfold Seen.sendPending
  rcases p.sendPending_batch id resendDelay addr env with ⟨hsends, -, -, -, hqueue⟩ |
    ⟨hsends, -, count, all, -, -, hqueue, -⟩
  · rw [hsends]
    refine ⟨?_, h.batch, fun k hnew => ?_⟩
    · rcases hqueue with hqueue | ⟨n, hqueue⟩
      · rw [hqueue]
        exact h.parts
      · rw [hqueue, PacketQueue.parts_pull, PacketOut.pull_firstUnacked]
        exact h.parts
    · rcases hqueue with hqueue | ⟨n, hqueue⟩
      · rw [hqueue]
        exact h.marks k hnew
      · rw [hqueue]
        exact PacketQueue.marks_pull (h.marks k hnew) n
  · rw [hsends]
    have hparts : (p.nextBatch addr env).2.1.firstUnacked +
        (p.nextBatch addr env).2.1.parts.length ≤ 1 := by
      have hpull : (p.nextBatch addr env).2.1 = p.packetQueue.pull p.balanced.val := rfl
      rw [hpull, PacketQueue.parts_pull, PacketOut.pull_firstUnacked]
      exact h.parts
    refine ⟨?_, fun k hk => ?_, fun k hnew => ?_⟩
    · rw [hqueue]
      exact hparts
    · exact Finset.mem_singleton.mpr (of_acceptedParts hparts hk).1
    · rw [hqueue]
      exact (of_acceptedParts hparts hnew.1).2

end PacketOut.Single

namespace Rounds

variable {m : ℕ} {addr : SocketAddr} {r r' : Rounds}

end Rounds

end Ultinet
