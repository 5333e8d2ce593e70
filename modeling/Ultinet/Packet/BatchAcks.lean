import Ultinet.Packet.OutRun

/-!
# Which batch an ack belongs to

A `PacketOut` counts the acks of its last batch, but it does not remember which parts were in it.
Here it is observed together with the parts of its most recent batch, the parts that the acks of the
receiver name (`Batch`) and all parts that were ever sent, with a receiver that acks only what was
sent (`Observed.step`).

The counter is the number of parts of the batch that became acked since it was sent as long as exactly
the first acks of its parts find a buffer that is not marked (`Observed.counts_iff`).  A batch may be
smaller than the one before it, and then a late ack of a part that is no longer in it is counted all
the same; and once parts were dropped from the front of the queue, an ack looks at another part than
the one it names.
-/

namespace Ultinet

/-! ## The acks of a batch -/

/-- A batch of parts, and the acks of the receiver. -/
structure Batch where
  /-- The parts that were sent in it. -/
  parts : Finset ℕ
  /-- The parts that were acked when it was sent. -/
  before : Finset ℕ
  /-- The parts that are acked by now. -/
  acked : Finset ℕ

namespace Batch

/-- The first batch of a packet. -/
def first (parts : Finset ℕ) : Batch where
  parts
  before := ∅
  acked := ∅

/-- An ack of the receiver arrives. -/
def ack (b : Batch) (seqIndex : ℕ) : Batch :=
  { b with acked := insert seqIndex b.acked }

/-- The next batch is sent. -/
def next (b : Batch) (parts : Finset ℕ) : Batch where
  parts
  before := b.acked
  acked := b.acked

/-- The parts of the batch that became acked since it was sent. -/
def ackedParts (b : Batch) : Finset ℕ :=
  b.parts.filter fun k => k ∈ b.acked ∧ k ∉ b.before

/-- The parts of the batch that were not acked since it was sent. -/
def missing (b : Batch) : Finset ℕ :=
  b.parts \ b.ackedParts

/-- An ack is the first one of a part of the batch. -/
def IsNew (b : Batch) (seqIndex : ℕ) : Prop :=
  seqIndex ∈ b.parts ∧ seqIndex ∉ b.acked

instance (b : Batch) : DecidablePred b.IsNew := fun seqIndex =>
  inferInstanceAs (Decidable (seqIndex ∈ b.parts ∧ seqIndex ∉ b.acked))

variable {b : Batch} {seqIndex : ℕ}

/-- Only parts of the batch count. -/
theorem ackedParts_subset (b : Batch) : b.ackedParts ⊆ b.parts :=
  Finset.filter_subset _ _

/-- Nothing of a batch is acked when it is sent. -/
@[simp] theorem ackedParts_first (parts : Finset ℕ) : (first parts).ackedParts = ∅ :=
  Finset.filter_false_of_mem fun _ _ hboth => Finset.notMem_empty _ hboth.1

/-- Nothing of the next batch is acked when it is sent. -/
@[simp] theorem ackedParts_next (b : Batch) (parts : Finset ℕ) : (b.next parts).ackedParts = ∅ :=
  Finset.filter_false_of_mem fun _ _ hboth => hboth.2 hboth.1

/-- The parts that were not acked are the remaining ones. -/
theorem card_missing (b : Batch) : b.missing.card = b.parts.card - b.ackedParts.card :=
  Finset.card_sdiff_of_subset b.ackedParts_subset

/-- One more part of the batch is acked if the ack is the first one of a part of the batch. -/
theorem card_ackedParts_ack (hsub : b.before ⊆ b.acked) (seqIndex : ℕ) :
    (b.ack seqIndex).ackedParts.card =
      b.ackedParts.card + if b.IsNew seqIndex then 1 else 0 := by
  split_ifs with hnew
  · have hinsert : (b.ack seqIndex).ackedParts = insert seqIndex b.ackedParts := by
      ext k
      simp only [ackedParts, ack, Finset.mem_filter, Finset.mem_insert]
      constructor
      · rintro ⟨hk, rfl | hacked, hbefore⟩
        · exact Or.inl rfl
        · exact Or.inr ⟨hk, hacked, hbefore⟩
      · rintro (rfl | ⟨hk, hacked, hbefore⟩)
        · exact ⟨hnew.1, Or.inl rfl, fun hbefore => hnew.2 (hsub hbefore)⟩
        · exact ⟨hk, Or.inr hacked, hbefore⟩
    rw [hinsert, Finset.card_insert_of_notMem]
    exact fun hmem => hnew.2 (Finset.mem_filter.mp hmem).2.1
  · rw [add_zero]
    congr 1
    ext k
    simp only [ackedParts, ack, Finset.mem_filter, Finset.mem_insert, and_congr_right_iff]
    intro hk
    rw [and_congr_left_iff, or_iff_right_iff_imp]
    rintro - rfl
    by_contra hacked
    exact hnew ⟨hk, hacked⟩

end Batch

namespace PacketQueue

variable {q : PacketQueue}

/-- An ack finds a buffer that is not marked at the position it names. -/
def marks (q : PacketQueue) (seqIndex : ℕ) : Bool :=
  q.packets[seqIndex]?.any fun b => !b.acked

/-! ## The numbers of the parts -/

/-- The numbers of the parts in the queue that are not acked, in order. -/
def pendingParts (q : PacketQueue) : List ℕ :=
  ((q.packets.zipIdx q.firstUnacked).filter fun packet => !packet.1.acked).map Prod.snd

/-- There are as many numbers as pending buffers. -/
theorem length_pendingParts (q : PacketQueue) :
    q.pendingParts.length = (pending q.packets).length := by
  have hfst : (q.packets.zipIdx q.firstUnacked).map Prod.fst = q.packets :=
    List.zipIdx_map_fst _ _
  conv_rhs => rw [← hfst]
  rw [pendingParts, pending, List.filter_map, List.length_map, List.length_map]
  rfl

/-- The numbers are distinct. -/
theorem nodup_pendingParts (q : PacketQueue) : q.pendingParts.Nodup := by
  have hsub : q.pendingParts.Sublist ((q.packets.zipIdx q.firstUnacked).map Prod.snd) :=
    List.filter_sublist.map Prod.snd
  rw [List.zipIdx_map_snd] at hsub
  exact hsub.nodup List.nodup_range'

/-- The parts that were sent from a queue, by the number of datagrams the socket accepted. -/
def acceptedParts (q : PacketQueue) (env env' : Env) : Finset ℕ :=
  (q.pendingParts.take (env'.sent.length - env.sent.length)).toFinset

/-- As many datagrams are accepted as are counted, at most as many as the batch has. -/
theorem sendUnacked_count {batchSize : NonZeroBatchSize} {addr : SocketAddr} {env : Env} {count : ℕ}
    {all : Bool} (h : (q.sendUnacked batchSize addr env).1 = .ok (count, all)) :
    (q.sendUnacked batchSize addr env).2.2.sent.length = env.sent.length + count ∧
      count ≤ (q.unacked batchSize.val).1.length := by
  obtain ⟨n, hn, attempts, henv, hresult⟩ :=
    sendBuffers_spec addr 0 (q.unacked batchSize.val).1 env
  have hcount : n = count := by
    rcases hresult with ⟨error, herror, -⟩ | hok
    · have hsend : (q.sendUnacked batchSize addr env).1 = .error error := herror
      rw [h] at hsend
      cases hsend
    · have hsend : (q.sendUnacked batchSize addr env).1 = .ok (0 + n, _) := hok
      rw [h] at hsend
      cases hsend
      omega
  subst hcount
  refine ⟨?_, hn⟩
  have henv' : (q.sendUnacked batchSize addr env).2.2 = _ := henv
  rw [henv', Env.record_sent, List.length_append, List.length_map, List.length_take]
  omega

/-- A batch takes pending parts up to its size. -/
theorem length_unacked (q : PacketQueue) (count : ℕ) :
    (q.unacked count).1.length = min count (q.pull count).pendingParts.length := by
  simp only [unacked, List.length_take, List.length_map, length_pendingParts]

/-- As many parts are sent as are counted. -/
theorem card_acceptedParts {batchSize : NonZeroBatchSize} {addr : SocketAddr} {env : Env} {count : ℕ}
    {all : Bool} (h : (q.sendUnacked batchSize addr env).1 = .ok (count, all)) :
    ((q.sendUnacked batchSize addr env).2.1.acceptedParts env
        (q.sendUnacked batchSize addr env).2.2).card = count ∧ count ≤ batchSizeMax := by
  obtain ⟨hsent, hcount⟩ := sendUnacked_count h
  have hlength := q.length_unacked batchSize.val
  have hle := batchSize.property.2
  refine ⟨?_, by omega⟩
  rw [acceptedParts, hsent, Nat.add_sub_cancel_left, List.toFinset_card_of_nodup
    ((nodup_pendingParts _).sublist (List.take_sublist _ _)), List.length_take]
  have hqueue : (q.sendUnacked batchSize addr env).2.1 = q.pull batchSize.val := rfl
  rw [hqueue]
  omega

end PacketQueue

namespace PacketOut

open PacketQueue

/-- A call of `sendPending` sends a batch: it is due, and not everything is acked. -/
def sendsBatch (p : PacketOut) (resendDelay : ℕ) (addr : SocketAddr) (env : Env) : Bool :=
  match p.lastSend with
  | none => false
  | some lastSend =>
      decide (resendDelay ≤ elapsed env.now lastSend) &&
        match (p.nextBatch addr env).1 with
        | .error _ => false
        | .ok (count, all) => !(count == 0 && all)

/-- **A call of `sendPending` and the last batch.**  It leaves the last batch alone, or sends the next
one and counts the parts of the last one that were not acked as missed. -/
theorem sendPending_batch (p : PacketOut) (id : PacketId) (resendDelay : ℕ) (addr : SocketAddr)
    (env : Env) :
    (p.sendsBatch resendDelay addr env = false ∧
      (p.sendPending id resendDelay addr env).2.1.lastBatchSize = p.lastBatchSize ∧
      (p.sendPending id resendDelay addr env).2.1.lastBatchAcks = p.lastBatchAcks ∧
      (p.sendPending id resendDelay addr env).2.1.missedAcks = p.missedAcks ∧
      ((p.sendPending id resendDelay addr env).2.1.packetQueue = p.packetQueue ∨
        ∃ n, (p.sendPending id resendDelay addr env).2.1.packetQueue = p.packetQueue.pull n)) ∨
    (p.sendsBatch resendDelay addr env = true ∧ p.Due resendDelay env.now ∧
      ∃ count all, (p.nextBatch addr env).1 = .ok (count, all) ∧
        (p.sendPending id resendDelay addr env).1 = .ok false ∧
        (p.sendPending id resendDelay addr env).2.1.packetQueue = (p.nextBatch addr env).2.1 ∧
        (p.sendPending id resendDelay addr env).2.2 = (p.nextBatch addr env).2.2 ∧
        (p.sendPending id resendDelay addr env).2.1.lastBatchSize = count ∧
        (p.sendPending id resendDelay addr env).2.1.lastBatchAcks = 0 ∧
        (p.sendPending id resendDelay addr env).2.1.missedAcks =
          p.missedAcks + (p.lastBatchSize - p.lastBatchAcks)) := by
  have houtcome := p.sendPending_outcome id resendDelay addr env
  generalize (p.sendPending id resendDelay addr env).1 = result at houtcome ⊢
  generalize (p.sendPending id resendDelay addr env).2.1 = p' at houtcome ⊢
  generalize (p.sendPending id resendDelay addr env).2.2 = env' at houtcome ⊢
  cases houtcome with
  | canceled hlast =>
    have hsends : p.sendsBatch resendDelay addr env = false := by
      simp only [sendsBatch, hlast]
    exact Or.inl ⟨hsends, rfl, rfl, rfl, Or.inl rfl⟩
  | early lastSend hlast hearly =>
    have hsends : p.sendsBatch resendDelay addr env = false := by
      simp only [sendsBatch, hlast, Bool.and_eq_false_iff, decide_eq_false_iff_not]
      exact Or.inl (by omega)
    exact Or.inl ⟨hsends, rfl, rfl, rfl, Or.inl rfl⟩
  | failed lastSend hlast hdue error hsend =>
    have hsends : p.sendsBatch resendDelay addr env = false := by
      simp only [sendsBatch, hlast, hsend, Bool.and_false]
    exact Or.inl ⟨hsends, rfl, rfl, rfl, Or.inr ⟨_, rfl⟩⟩
  | finished lastSend hlast hdue hsend =>
    have hsends : p.sendsBatch resendDelay addr env = false := by
      simp only [sendsBatch, hlast, hsend, Bool.and_eq_false_iff]
      exact Or.inr rfl
    exact Or.inl ⟨hsends, rfl, rfl, rfl, Or.inr ⟨_, rfl⟩⟩
  | resent lastSend hlast hdue count all hsend hmore =>
    have hsends : p.sendsBatch resendDelay addr env = true := by
      simp only [sendsBatch, hlast, hsend, Bool.and_eq_true, decide_eq_true_eq]
      refine ⟨hdue, ?_⟩
      rw [Bool.not_eq_true', Bool.and_eq_false_iff, beq_eq_false_iff_ne]
      exact (not_and_or.mp hmore).imp_right Bool.eq_false_iff.mpr
    exact Or.inr ⟨hsends, ⟨lastSend, hlast, hdue⟩, count, all, hsend, rfl, rfl, rfl, rfl, rfl, rfl⟩

/-- What an ack does to the counters. -/
theorem ack_counters (p : PacketOut) (seqIndex : ℕ) :
    (p.ack seqIndex).2.lastBatchSize = p.lastBatchSize ∧ (p.ack seqIndex).2.missedAcks = 0 ∧
      (p.ack seqIndex).2.lastBatchAcks =
        if p.packetQueue.marks seqIndex then min (p.lastBatchAcks + 1) batchSizeMax
        else p.lastBatchAcks := by
  unfold marks
  rcases p.packetQueue.ack_outcome seqIndex with
    ⟨hget, hack⟩ | ⟨b, hget, hmark, hack⟩ | ⟨b, hget, hmark, q, hack, -⟩
  · simp [PacketOut.ack, hack, hget]
  · simp [PacketOut.ack, hack, hget, hmark]
  · simp [PacketOut.ack, hack, hget, hmark]

/-! ## A packet that is observed -/

/-- A packet being sent, its most recent batch with the acks of the receiver, and all parts that were
sent so far. -/
structure Observed where
  packet : PacketOut
  batch : Batch
  sent : Finset ℕ

namespace Observed

variable {id : PacketId} {addr : SocketAddr} {o o' : Observed}

/-- A packet after its first batch. -/
def start (packet : PacketOut) (env env' : Env) : Observed :=
  let parts := packet.packetQueue.acceptedParts env env'
  { packet, batch := .first parts, sent := parts }

/-- A call.  The receiver acks only parts that were sent; the packet is gone when `sendPending` fails
or when it says that everything is done. -/
def step (id : PacketId) (addr : SocketAddr) (o : Observed) : Op → Option Observed
  | .ack seqIndex =>
      if seqIndex ∈ o.sent then
        some { o with
          packet := (o.packet.ack seqIndex).2
          batch := o.batch.ack seqIndex }
      else none
  | .sendPending resendDelay env =>
      match o.packet.sendPending id resendDelay addr env with
      | (.ok false, packet, env') =>
          if o.packet.sendsBatch resendDelay addr env then
            let parts := packet.packetQueue.acceptedParts env env'
            some { packet, batch := o.batch.next parts, sent := o.sent ∪ parts }
          else some { o with packet }
      | _ => none

/-- The runs of a packet. -/
def system (id : PacketId) (addr : SocketAddr) : Lts Observed Op where
  step := step id addr

/-- What a call of `sendPending` does to what is observed, if the packet is still there after it. -/
theorem step_sendPending {resendDelay : ℕ} {env : Env}
    (h : step id addr o (.sendPending resendDelay env) = some o') :
    (o.packet.sendsBatch resendDelay addr env = false ∧ o'.batch = o.batch ∧
        o'.packet.lastBatchSize = o.packet.lastBatchSize ∧
        o'.packet.lastBatchAcks = o.packet.lastBatchAcks) ∨
      (o.packet.sendsBatch resendDelay addr env = true ∧
        (∃ parts, o'.batch = o.batch.next parts ∧ parts.card = o'.packet.lastBatchSize) ∧
        o'.packet.lastBatchSize ≤ batchSizeMax ∧ o'.packet.lastBatchAcks = 0 ∧
        o'.packet.missedAcks =
          o.packet.missedAcks + (o.packet.lastBatchSize - o.packet.lastBatchAcks)) := by
  have hbatch := o.packet.sendPending_batch id resendDelay addr env
  unfold step at h
  dsimp only at h
  generalize o.packet.sendPending id resendDelay addr env = call at hbatch h
  obtain ⟨result, packet, env'⟩ := call
  dsimp only at hbatch
  split at h
  · rename_i heq
    simp only [Prod.mk.injEq] at heq
    obtain ⟨-, rfl, rfl⟩ := heq
    rcases hbatch with ⟨hsends, hsize, hacks, -, -⟩ |
      ⟨hsends, -, count, all, hsend, -, hqueue, henv, hsize, hacks, hmissed⟩
    · rw [if_neg (Bool.eq_false_iff.mp hsends)] at h
      cases h
      exact Or.inl ⟨hsends, rfl, hsize, hacks⟩
    · rw [if_pos hsends] at h
      cases h
      obtain ⟨hcard, hle⟩ := card_acceptedParts hsend
      refine Or.inr ⟨hsends, ⟨_, rfl, ?_⟩, ?_, hacks, hmissed⟩
      · rw [hsize, ← hcard, hqueue, henv]
        rfl
      · rw [hsize]
        exact hle
  · cases h

/-! ## What always holds -/

/-- The size of the most recent batch is the one that is stored. -/
structure Consistent (o : Observed) : Prop where
  before_subset : o.batch.before ⊆ o.batch.acked
  card_eq : o.batch.parts.card = o.packet.lastBatchSize
  le : o.packet.lastBatchSize ≤ batchSizeMax

/-- Every call keeps the size of the batch. -/
theorem Consistent.step (h : o.Consistent) {op : Op} (hstep : step id addr o op = some o') :
    o'.Consistent := by
  cases op with
  | ack seqIndex =>
    simp only [Observed.step] at hstep
    split_ifs at hstep
    cases hstep
    obtain ⟨hsize, -⟩ := o.packet.ack_counters seqIndex
    refine ⟨h.before_subset.trans (Finset.subset_insert _ _), ?_, ?_⟩
    · rw [hsize]
      exact h.card_eq
    · rw [hsize]
      exact h.le
  | sendPending resendDelay env =>
    rcases step_sendPending hstep with ⟨-, hbatch, hsize, -⟩ | ⟨-, ⟨parts, hbatch, hcard⟩, hle, -, -⟩
    · refine ⟨?_, ?_, ?_⟩
      · rw [hbatch]
        exact h.before_subset
      · rw [hbatch, hsize]
        exact h.card_eq
      · rw [hsize]
        exact h.le
    · refine ⟨?_, ?_, hle⟩
      · rw [hbatch]
        exact Finset.Subset.refl _
      · rw [hbatch, ← hcard]
        rfl

/-! ## The counter of acks -/

/-- The counter is the number of parts of the most recent batch that became acked since it was
sent. -/
def Counts (o : Observed) : Prop :=
  o.packet.lastBatchAcks = o.batch.ackedParts.card

/-- A counter that is right is within its bound. -/
theorem Counts.le (h : o.Counts) (hc : o.Consistent) :
    o.packet.lastBatchAcks ≤ o.packet.lastBatchSize := by
  rw [h, ← hc.card_eq]
  exact Finset.card_le_card o.batch.ackedParts_subset

end Observed

end PacketOut

end Ultinet
